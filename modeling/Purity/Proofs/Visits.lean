-- The laws of a session. It is asked to visit declarations under keys, in any order and as often as
-- one likes. The first visit of a key decides what is known under it and is the only one that
-- tells anything, so every law below holds for every series of visits, of any length.
import Mathlib.Data.Finset.Card
import Purity.Proofs.Verdict

namespace Purity

/-! ## What is known under a key -/

namespace States

theorem lookup_filter_ne (entries : List (Key × Progress)) {key k : Key} (h : k ≠ key) :
    (entries.filter (·.1 ≠ key)).lookup k = entries.lookup k := by
  induction entries with
  | nil => rfl
  | cons e entries ih =>
    obtain ⟨k', p⟩ := e
    by_cases hk : k' = key
    · subst hk
      have hne : (k == k') = false := by simpa using h
      simp only [ne_eq, decide_not] at ih
      simp [List.lookup_cons, hne, ih]
    · simp only [ne_eq, decide_not] at ih
      simp [hk, List.lookup_cons, ih]

theorem get?_insert (states : States) (key k : Key) (p : Progress) :
    (states.insert key p).get? k = if k = key then some p else states.get? k := by
  by_cases h : k = key
  · subst h
    simp [get?, insert]
  · have hne : (k == key) = false := by simpa using h
    have hf := lookup_filter_ne states.entries h
    simp only [ne_eq, decide_not] at hf
    simp [get?, insert, List.lookup_cons, hne, h, hf]

/-- Something is known under exactly the keys of the entries. -/
theorem isSome_get? (states : States) (k : Key) :
    (states.get? k).isSome = true ↔ k ∈ states.entries.map Prod.fst := by
  rw [get?, List.lookup_isSome_iff, List.mem_map]
  constructor
  · rintro ⟨e, he, hk⟩
    exact ⟨e, he, (beq_iff_eq.mp hk).symm⟩
  · rintro ⟨e, he, hk⟩
    exact ⟨e, he, beq_iff_eq.mpr hk.symm⟩

end States

/-! ## One visit -/

/-- How far a session is with a declaration once it has been checked. -/
def Table.settled (t : Table) (decl : Decl) : Progress :=
  match decl.body with
  | none => .skipped
  | some _ => .classified (t.judge decl).inferred

namespace Table

variable (t : Table) (d : SourceFile × Decl)

/-- What the check of a function has to tell. -/
def told : List Diagnostic := Session.diagnosticsOf (t.check d.1 d.2)

/-- What the check of a function returns. -/
def outcome : Except Failure (Option FunctionReport) := (t.check d.1 d.2).map (·.report)

/-- What others see of the visit of a function. It notes first and tells then. -/
def seen : List Event := (t.checkNotes d.2).map .noted ++ (t.told d).map .told

/-- The visit of a function that has been checked, and of which nothing has been seen. -/
def pending : Pending := ⟨t.seen d, some (t.settled d.2), t.outcome d⟩

theorem filterMap_diagnostic?_seen : (t.seen d).filterMap Event.diagnostic? = t.told d := by
  simp [seen, Function.comp_def, Event.diagnostic?]

end Table

namespace Session

theorem progressOf_check (t : Table) (file : SourceFile) (decl : Decl) :
    progressOf (t.check file decl) = t.settled decl := by
  unfold Table.settled
  rcases t.check_cases file decl with ⟨hb, hc⟩ | ⟨hb, _, hc⟩ | ⟨hb, _, _, hc⟩ | ⟨hb, _, hc⟩
  · rw [hc, show decl.body = none by simpa [Decl.hasBody] using hb]
    rfl
  all_goals
    obtain ⟨body, hbody⟩ := Option.isSome_iff_exists.mp hb
    rw [hc, hbody]
    rfl

/-- A visit under a new key claims it, and has what the check gives before it. -/
theorem enter_of_new {s : Session} {key : Key} (file : SourceFile) (decl : Decl)
    (h : s.states.get? key = none) :
    s.enter key file decl = (s.put key .visiting, s.table.pending (file, decl)) := by
  simp only [enter, h, Table.pending, Table.seen, Table.told, Table.outcome, progressOf_check]

/-- A key that is known is not looked at again. -/
theorem visit_of_known {s : Session} {key : Key} (file : SourceFile) (decl : Decl)
    (h : (s.states.get? key).isSome = true) :
    (s.visit key file decl).session = s ∧ (s.visit key file decl).outcome = .ok none ∧
      (s.visit key file decl).diagnostics = [] := by
  obtain ⟨p, hp⟩ := Option.isSome_iff_exists.mp h
  simp [visit, enter, hp, leave, Event.diagnostic?]

/-- A new key is claimed and settled, and nothing else changes. -/
theorem visit_of_new {s : Session} {key : Key} (file : SourceFile) (decl : Decl)
    (h : s.states.get? key = none) :
    (s.visit key file decl).session.table = s.table ∧
      (∀ k, (s.visit key file decl).session.states.get? k =
        if k = key then some (s.table.settled decl) else s.states.get? k) ∧
      (s.visit key file decl).outcome = (s.table.check file decl).map (·.report) ∧
      (s.visit key file decl).diagnostics = diagnosticsOf (s.table.check file decl) := by
  simp only [visit, enter_of_new file decl h]
  refine ⟨rfl, ?_, rfl, s.table.filterMap_diagnostic?_seen (file, decl)⟩
  intro k
  simp only [leave, Table.pending, put, States.get?_insert]
  split <;> rfl

end Session

/-! ## Many visits -/

/-- A request to visit a declaration under a key, and the sink that is to be told. -/
structure Request (σ : Type) where
  key : Key
  file : SourceFile
  decl : Decl
  sink : σ

namespace Request

variable {σ : Type}

/-- The requests whose key is not one of `seen` and that no request before them has. -/
def firstsFrom : List Key → List (Request σ) → List (Request σ)
  | _, [] => []
  | seen, r :: rs =>
    if r.key ∈ seen then firstsFrom seen rs else r :: firstsFrom (r.key :: seen) rs

/-- The first request of each key, in order. -/
def firsts (requests : List (Request σ)) : List (Request σ) := firstsFrom [] requests

theorem firstsFrom_snoc (seen : List Key) (rs : List (Request σ)) (r : Request σ) :
    firstsFrom seen (rs ++ [r]) =
      firstsFrom seen rs ++ if r.key ∈ seen ∨ r.key ∈ rs.map (·.key) then [] else [r] := by
  induction rs generalizing seen with
  | nil => simp [firstsFrom]
  | cons q rs ih =>
    by_cases h : q.key ∈ seen
    · have hcond : (r.key ∈ seen ∨ r.key ∈ (q :: rs).map (·.key)) ↔
          (r.key ∈ seen ∨ r.key ∈ rs.map (·.key)) := by
        rw [List.map_cons, List.mem_cons]
        constructor
        · rintro (hr | hr | hr)
          · exact .inl hr
          · exact .inl (hr ▸ h)
          · exact .inr hr
        · rintro (hr | hr)
          · exact .inl hr
          · exact .inr (.inr hr)
      simp only [List.cons_append, firstsFrom, h, if_true, ih, hcond]
    · have hcond : (r.key ∈ q.key :: seen ∨ r.key ∈ rs.map (·.key)) ↔
          (r.key ∈ seen ∨ r.key ∈ (q :: rs).map (·.key)) := by
        rw [List.map_cons, List.mem_cons, List.mem_cons]
        exact or_assoc.trans or_left_comm
      simp only [List.cons_append, firstsFrom, h, if_false, ih, hcond]

theorem firsts_snoc (rs : List (Request σ)) (r : Request σ) :
    firsts (rs ++ [r]) = firsts rs ++ if r.key ∈ rs.map (·.key) then [] else [r] := by
  simp only [firsts, firstsFrom_snoc, List.not_mem_nil, false_or]

theorem find?_snoc (rs : List (Request σ)) (r : Request σ) (key : Key) :
    (rs ++ [r]).find? (fun q => q.key = key) =
      (rs.find? fun q => q.key = key).or (if r.key = key then some r else none) := by
  rw [List.find?_append]
  by_cases h : r.key = key
  · simp [h]
  · simp [h]

end Request

/-! ## Sessions that serve requests -/

/-- A session, and what each sink has received. -/
structure Served (σ : Type) where
  session : Session
  received : σ → List Diagnostic

section

variable {σ : Type} [DecidableEq σ]

namespace Served

/-- Serves a request: visits, and tells the sink of the request what the visit has to tell. -/
def serve (s : Served σ) (r : Request σ) : Served σ :=
  let v := s.session.visit r.key r.file r.decl
  ⟨v.session, fun sink =>
    if sink = r.sink then s.received sink ++ v.diagnostics else s.received sink⟩

/-- A new session serves requests one after the other. -/
def run (t : Table) (requests : List (Request σ)) : Served σ :=
  requests.foldl serve ⟨.start t, fun _ => []⟩

end Served

/-- What a series of requests leaves behind: under each key what its first request decides, and at
each sink what the checks of the first requests that named it have to tell, in order. -/
structure Served.Settled (t : Table) (rs : List (Request σ)) (s : Served σ) : Prop where
  table_eq : s.session.table = t
  states_eq : ∀ key, s.session.states.get? key =
    (rs.find? fun r => r.key = key).map fun r => t.settled r.decl
  received_eq : ∀ sink, s.received sink =
    ((Request.firsts rs).filter fun r => r.sink = sink).flatMap fun r =>
      Session.diagnosticsOf (t.check r.file r.decl)

namespace Served

variable {t : Table} {rs : List (Request σ)} {s : Served σ}

theorem Settled.isSome_iff (h : s.Settled t rs) (key : Key) :
    (s.session.states.get? key).isSome = true ↔ key ∈ rs.map (·.key) := by
  rw [h.states_eq, Option.isSome_map, List.find?_isSome, List.mem_map]
  simp only [decide_eq_true_eq]

theorem settled_start (t : Table) : Settled t [] (⟨.start t, fun _ => []⟩ : Served σ) :=
  ⟨rfl, fun _ => rfl, fun _ => rfl⟩

/-- A request for a key that has been asked for leaves all as it was. -/
theorem settled_serve_known (h : s.Settled t rs) {r : Request σ} (hr : r.key ∈ rs.map (·.key)) :
    (s.serve r).Settled t (rs ++ [r]) := by
  have hsome := (h.isSome_iff r.key).mpr hr
  obtain ⟨hs, -, hd⟩ := Session.visit_of_known r.file r.decl hsome
  refine ⟨?_, ?_, ?_⟩
  · simp only [serve, hs]
    exact h.table_eq
  · intro key
    simp only [serve, hs, Request.find?_snoc]
    rw [h.states_eq]
    by_cases hk : r.key = key
    -- An earlier request has the key, so that the new one is never the first.
    · subst hk
      rw [h.states_eq, Option.isSome_map] at hsome
      rw [Option.or_of_isSome hsome]
    · simp [hk]
  · intro sink
    simp only [serve, hd, Request.firsts_snoc, hr, if_true, List.append_nil, ite_self]
    exact h.received_eq sink

/-- A request for a new key settles it and tells its sink. -/
theorem settled_serve_new (h : s.Settled t rs) {r : Request σ} (hr : r.key ∉ rs.map (·.key)) :
    (s.serve r).Settled t (rs ++ [r]) := by
  have hnone : s.session.states.get? r.key = none := by
    rw [← Option.not_isSome_iff_eq_none, h.isSome_iff]
    exact hr
  obtain ⟨ht, hs, -, hd⟩ := Session.visit_of_new r.file r.decl hnone
  refine ⟨?_, ?_, ?_⟩
  · exact ht.trans h.table_eq
  · intro key
    simp only [serve, hs, Request.find?_snoc, h.table_eq]
    by_cases hk : key = r.key
    · subst hk
      rw [h.states_eq, Option.map_eq_none_iff] at hnone
      simp [hnone]
    · simp [hk, Ne.symm hk, h.states_eq]
  · intro sink
    simp only [serve, hd, Request.firsts_snoc, hr, if_false, List.filter_append,
      List.flatMap_append, h.table_eq, h.received_eq sink]
    by_cases hk : sink = r.sink
    · simp [hk]
    · simp [hk, Ne.symm hk]

theorem settled_serve (h : s.Settled t rs) (r : Request σ) :
    (s.serve r).Settled t (rs ++ [r]) := by
  by_cases hr : r.key ∈ rs.map (·.key)
  · exact settled_serve_known h hr
  · exact settled_serve_new h hr

theorem settled_run (t : Table) (rs : List (Request σ)) : (run t rs).Settled t rs := by
  induction rs using List.reverseRecOn with
  | nil => exact settled_start t
  | append_singleton rs r ih =>
    rw [run, List.foldl_append]
    exact settled_serve ih r

theorem Settled.progress_of_not_mem (h : s.Settled t rs) {key : Key}
    (hk : key ∉ rs.map (·.key)) : s.session.progress key = .unvisited := by
  rw [← h.isSome_iff, Option.not_isSome_iff_eq_none] at hk
  rw [Session.progress, hk, Option.getD_none]

theorem Settled.progress_of_find? (h : s.Settled t rs) {key : Key} {r : Request σ}
    (hr : rs.find? (fun q => q.key = key) = some r) :
    s.session.progress key = t.settled r.decl := by
  rw [Session.progress, h.states_eq, hr, Option.map_some, Option.getD_some]

/-- No key is left claimed, and none has failed. -/
theorem Settled.progress_done (h : s.Settled t rs) (key : Key) :
    s.session.progress key ≠ .visiting ∧ ∀ reason, s.session.progress key ≠ .failed reason := by
  rcases hr : rs.find? (fun q => q.key = key) with _ | r
  · rw [Session.progress, h.states_eq, hr]
    exact ⟨by simp, by simp⟩
  · rw [h.progress_of_find? hr, Table.settled]
    split
    · exact ⟨by simp, by simp⟩
    · exact ⟨by simp, by simp⟩

theorem Settled.visitedCount_eq (h : s.Settled t rs) :
    s.session.visitedCount = (rs.map (·.key)).toFinset.card := by
  have hkeys : (s.session.states.entries.map Prod.fst).toFinset = (rs.map (·.key)).toFinset := by
    ext key
    rw [List.mem_toFinset, List.mem_toFinset, ← States.isSome_get?, h.isSome_iff]
  rw [← hkeys, List.toFinset_card_of_nodup s.session.states.distinct, List.length_map]
  rfl

end Served

end

/-! ## The law -/

/-- After any series of visits, a key that was not visited is unvisited, and the first visit of a key
alone decides what is known under it: that it was skipped, or the level of its body. Each later visit
of the key returns nothing, tells nothing and changes nothing. The keys are counted once each, and
each sink has received what the checks of the first visits that named it tell, in the order of the
visits. -/
theorem the_first_visit_of_a_key_decides {σ : Type} [DecidableEq σ] (t : Table)
    (rs : List (Request σ)) :
    (∀ key, key ∉ rs.map (·.key) → (Served.run t rs).session.progress key = .unvisited) ∧
      (∀ key r, rs.find? (fun q => q.key = key) = some r →
        (Served.run t rs).session.progress key =
          match r.decl.body with
          | none => .skipped
          | some _ => .classified (t.classify r.decl (t.declaredLevel r.decl.signature)).inferred) ∧
      (∀ key, (Served.run t rs).session.progress key ≠ .visiting ∧
        ∀ reason, (Served.run t rs).session.progress key ≠ .failed reason) ∧
      (∀ key ∈ rs.map (·.key), ∀ file decl,
        let v := (Served.run t rs).session.visit key file decl
        v.outcome = .ok none ∧ v.diagnostics = [] ∧ v.session = (Served.run t rs).session) ∧
      (Served.run t rs).session.visitedCount = (rs.map (·.key)).toFinset.card ∧
      (∀ sink, (Served.run t rs).received sink =
        ((Request.firsts rs).filter fun r => r.sink = sink).flatMap fun r =>
          Session.diagnosticsOf (t.check r.file r.decl)) := by
  have h := Served.settled_run t rs
  refine ⟨fun _ => h.progress_of_not_mem, fun _ _ => h.progress_of_find?, h.progress_done, ?_,
    h.visitedCount_eq, h.received_eq⟩
  intro key hk file decl
  obtain ⟨hs, ho, hd⟩ := Session.visit_of_known file decl ((h.isSome_iff key).mpr hk)
  exact ⟨ho, hd, hs⟩

end Purity
