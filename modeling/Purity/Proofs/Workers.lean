-- The laws of visits at the same time, under keys of their own. Whatever turns they take, each visit
-- gives what the check of its declaration gives. What is told interleaves: each declaration's part
-- keeps its order, and every way to put the parts together can come about.
import Purity.Proofs.Interleaving
import Purity.Proofs.Tour

namespace Purity

/-! ## How far a visit is -/

/-- How far a visit is agrees with the session and with what was seen of it. One that waits has left
no trace, one that has begun has the rest before it, and one that has ended is settled. -/
inductive Task.Agrees (s : Session) (past : List Event) : Task → Prop
  | waiting {d : Key × SourceFile × Decl} (hpast : past = []) (hnew : s.states.get? d.1 = none) :
    Agrees s past ⟨d, .waiting⟩
  | begun {d : Key × SourceFile × Decl} {left : List Event}
    (hseen : past ++ left = s.table.seen d.2) :
    Agrees s past ⟨d, .begun ⟨left, some (s.table.settled d.2.2), s.table.outcome d.2⟩⟩
  | ended {d : Key × SourceFile × Decl} (hseen : past = s.table.seen d.2)
    (hsettled : s.states.get? d.1 = some (s.table.settled d.2.2)) :
    Agrees s past ⟨d, .ended (s.table.outcome d.2)⟩

/-- Nothing but the table and the visit's own key matters to it. -/
theorem Task.Agrees.of_alike {s s' : Session} {past : List Event} {task : Task}
    (h : task.Agrees s past) (htable : s'.table = s.table)
    (hkey : s'.states.get? task.declaration.1 = s.states.get? task.declaration.1) :
    task.Agrees s' past := by
  cases h with
  | waiting hpast hnew => exact .waiting hpast (hkey.trans hnew)
  | begun hseen =>
    rw [← htable] at hseen ⊢
    exact .begun hseen
  | ended hseen hsettled =>
    rw [← htable] at hseen hsettled ⊢
    exact .ended hseen (hkey.trans hsettled)

theorem Session.get?_put_of_ne (s : Session) {key k : Key} (p : Progress) (h : k ≠ key) :
    (s.put key p).states.get? k = s.states.get? k := by
  rw [put, States.get?_insert, if_neg h]

theorem Session.get?_put_self (s : Session) (key : Key) (p : Progress) :
    (s.put key p).states.get? key = some p := by
  rw [put, States.get?_insert, if_pos rfl]

/-! ## Turns -/

/-- All visits of a crew agree with its session, which has otherwise stayed as it was. -/
structure Crew.Fits (s : Session) (ds : List (Key × SourceFile × Decl)) (crew : Crew) : Prop where
  declarations : crew.tasks.map (·.declaration) = ds
  table : crew.session.table = s.table
  agrees : ∀ (i : Nat) (task : Task), crew.tasks[i]? = some task →
    task.Agrees crew.session (said crew.events task.declaration.1)
  kept : ∀ key, key ∉ ds.map Prod.fst → crew.session.states.get? key = s.states.get? key
  known : ∀ e ∈ crew.events, e.1 ∈ ds.map Prod.fst

namespace Crew

variable {s : Session} {ds : List (Key × SourceFile × Decl)} {crew : Crew}

theorem fits_start (hnew : ∀ d ∈ ds, s.states.get? d.1 = none) : (start s ds).Fits s ds where
  declarations := by simp [start, Function.comp_def]
  table := rfl
  agrees i task htask := by
    rw [start, List.getElem?_map, Option.map_eq_some_iff] at htask
    obtain ⟨d, hd, rfl⟩ := htask
    exact .waiting rfl (hnew d (List.mem_of_getElem? hd))
  kept _ _ := rfl
  known := by simp [start]

theorem Fits.index_eq (h : crew.Fits s ds) (hkeys : (ds.map Prod.fst).Nodup) {i j : Nat}
    {a b : Task} (ha : crew.tasks[i]? = some a) (hb : crew.tasks[j]? = some b)
    (heq : a.declaration.1 = b.declaration.1) : i = j := by
  have hkey : ∀ {k : Nat} {task : Task}, crew.tasks[k]? = some task →
      (ds.map Prod.fst)[k]? = some task.declaration.1 := by
    intro k task hk
    rw [← h.declarations, List.map_map, List.getElem?_map, hk]
    rfl
  have hi := hkey ha
  have hlt : i < (ds.map Prod.fst).length := (List.getElem?_eq_some_iff.mp hi).1
  exact (List.getElem?_inj hlt hkeys).mp (hi.trans (heq ▸ (hkey hb).symm))

/-- One visit goes on. The others have other keys. -/
theorem Fits.move (h : crew.Fits s ds) (hkeys : (ds.map Prod.fst).Nodup) {i : Nat}
    {d : Key × SourceFile × Decl} {stage stage' : Stage} {s' : Session} {es : List Event}
    (hi : crew.tasks[i]? = some ⟨d, stage⟩) (htable : s'.table = crew.session.table)
    (hother : ∀ key, key ≠ d.1 → s'.states.get? key = crew.session.states.get? key)
    (hagrees : Task.Agrees s' (said crew.events d.1 ++ es) ⟨d, stage'⟩) :
    Fits s ds ⟨s', crew.tasks.set i ⟨d, stage'⟩, crew.events ++ es.map fun e => (d.1, e)⟩ := by
  have hd : ds[i]? = some d := by
    rw [← h.declarations, List.getElem?_map, hi]
    rfl
  have hmem : d.1 ∈ ds.map Prod.fst := List.mem_map_of_mem (List.mem_of_getElem? hd)
  refine ⟨?_, htable.trans h.table, ?_, ?_, ?_⟩
  · obtain ⟨hlt, heq⟩ := List.getElem?_eq_some_iff.mp hd
    rw [List.map_set, h.declarations, ← heq]
    exact List.set_getElem_self hlt
  · intro j task hj
    rw [List.getElem?_set] at hj
    split at hj
    · split at hj
      · cases hj
        rw [said_append, said_map_self]
        exact hagrees
      · cases hj
    · rename_i hij
      have hne : task.declaration.1 ≠ d.1 := fun heq => hij (h.index_eq hkeys hi hj heq.symm)
      rw [said_append, said_map_of_ne hne, List.append_nil]
      exact (h.agrees j task hj).of_alike htable (hother _ hne)
  · intro key hkey
    have hne : key ≠ d.1 := fun heq => hkey (heq ▸ hmem)
    rw [hother key hne, h.kept key hkey]
  · intro e he
    rcases List.mem_append.mp he with he | he
    · exact h.known e he
    · obtain ⟨_, _, rfl⟩ := List.mem_map.mp he
      exact hmem

/-- One visit goes on, and nothing is seen of that. -/
theorem Fits.move_unseen (h : crew.Fits s ds) (hkeys : (ds.map Prod.fst).Nodup) {i : Nat}
    {d : Key × SourceFile × Decl} {stage stage' : Stage} {s' : Session}
    (hi : crew.tasks[i]? = some ⟨d, stage⟩) (htable : s'.table = crew.session.table)
    (hother : ∀ key, key ≠ d.1 → s'.states.get? key = crew.session.states.get? key)
    (hagrees : Task.Agrees s' (said crew.events d.1) ⟨d, stage'⟩) :
    Fits s ds ⟨s', crew.tasks.set i ⟨d, stage'⟩, crew.events⟩ := by
  rw [← List.append_nil (said _ _)] at hagrees
  have hmove := h.move hkeys hi htable hother hagrees
  rwa [List.map_nil, List.append_nil] at hmove

theorem fits_turn (h : crew.Fits s ds) (hkeys : (ds.map Prod.fst).Nodup) (i : Nat) :
    (crew.turn i).Fits s ds := by
  unfold turn
  split
  · exact h
  · rename_i d hi
    cases h.agrees i _ hi with
    | waiting hpast hnew =>
      rw [Session.enter_of_new d.2.1 d.2.2 hnew]
      refine h.move_unseen hkeys hi rfl (fun key hne => Session.get?_put_of_ne _ _ hne) ?_
      exact .begun (by rw [hpast]; rfl)
  · rename_i d e left settles outcome hi
    cases h.agrees i _ hi with
    | begun hseen =>
      have hmore : said crew.events d.1 ++ [e] ++ left = crew.session.table.seen d.2 := by
        rw [List.append_assoc]
        exact hseen
      exact h.move hkeys hi rfl (fun _ _ => rfl) (.begun hmore)
  · rename_i d settles outcome hi
    cases h.agrees i _ hi with
    | begun hseen =>
      rw [List.append_nil] at hseen
      refine h.move_unseen hkeys hi rfl (fun key hne => Session.get?_put_of_ne _ _ hne) ?_
      exact .ended hseen (Session.get?_put_self _ _ _)
  · exact h

theorem fits_turns (h : crew.Fits s ds) (hkeys : (ds.map Prod.fst).Nodup) (turns : List Nat) :
    (turns.foldl turn crew).Fits s ds := by
  induction turns generalizing crew with
  | nil => exact h
  | cons i turns ih => exact ih (fits_turn h hkeys i)

end Crew

/-! ## The ends -/

namespace Session

/-- What is left of a visit that agrees with the session: the rest is seen, the outcome is that of
the check, and at the end the key is settled. -/
structure Rests (s : Session) (past : List Event) (d : Key × SourceFile × Decl)
    (r : Session × Pending) : Prop where
  outcome_eq : r.2.outcome = s.table.outcome d.2
  seen : past ++ r.2.left = s.table.seen d.2
  table : (r.1.leave d.1 r.2).table = s.table
  settled : (r.1.leave d.1 r.2).states.get? d.1 = some (s.table.settled d.2.2)
  kept : ∀ key, key ≠ d.1 → (r.1.leave d.1 r.2).states.get? key = s.states.get? key

variable {s : Session} {past : List Event} {task : Task}

theorem rests_rest (h : task.Agrees s past) : s.Rests past task.declaration (s.rest task) := by
  unfold rest
  cases h with
  | waiting hpast hnew =>
    rename_i d
    simp only [enter_of_new d.2.1 d.2.2 hnew]
    refine ⟨rfl, by rw [hpast]; rfl, rfl, get?_put_self _ _ _, fun key hne => ?_⟩
    exact (get?_put_of_ne _ _ hne).trans (get?_put_of_ne _ _ hne)
  | begun hseen =>
    exact ⟨rfl, hseen, rfl, get?_put_self _ _ _, fun key hne => get?_put_of_ne _ _ hne⟩
  | ended hseen hsettled =>
    exact ⟨rfl, by rw [hseen, List.append_nil], rfl, hsettled, fun _ _ => rfl⟩

/-- Visits that agree with a session have all come to their ends: nothing is left to be seen of any
of them, and just their keys are settled. -/
structure Finishes (s : Session) (past : Key → List Event) (tasks : List Task)
    (r : Session × List (Key × String × Except Failure (Option FunctionReport)) ×
      List (Key × Event)) : Prop where
  outcomes_eq : r.2.1 = tasks.map fun task => s.table.entry task.declaration
  settled : ∀ task ∈ tasks,
    r.1.states.get? task.declaration.1 = some (s.table.settled task.declaration.2.2)
  kept : ∀ key, key ∉ tasks.map (·.declaration.1) → r.1.states.get? key = s.states.get? key
  seen : ∀ task ∈ tasks, past task.declaration.1 ++ said r.2.2 task.declaration.1 =
    s.table.seen task.declaration.2
  known : ∀ e ∈ r.2.2, e.1 ∈ tasks.map (·.declaration.1)

theorem finishes_finish {past : Key → List Event} (tasks : List Task)
    (hkeys : (tasks.map (·.declaration.1)).Nodup)
    (h : ∀ task ∈ tasks, task.Agrees s (past task.declaration.1)) :
    s.Finishes past tasks (s.finish tasks) := by
  induction tasks generalizing s with
  | nil => exact ⟨rfl, by simp, fun _ _ => rfl, by simp, by simp [finish]⟩
  | cons task tasks ih =>
    rw [List.map_cons, List.nodup_cons] at hkeys
    have hrest := rests_rest (h task List.mem_cons_self)
    have hne : ∀ other ∈ tasks, other.declaration.1 ≠ task.declaration.1 :=
      fun other hother heq => hkeys.1 (heq ▸ List.mem_map_of_mem hother)
    have hfinish := ih hkeys.2 fun other hother =>
      (h other (List.mem_cons_of_mem task hother)).of_alike hrest.table
        (hrest.kept _ (hne other hother))
    have hown : said (((s.rest task).1.leave task.declaration.1 (s.rest task).2).finish tasks).2.2
        task.declaration.1 = [] := by
      refine said_eq_nil fun hmem => ?_
      obtain ⟨e, he, hkey⟩ := List.mem_map.mp hmem
      exact hkeys.1 (hkey ▸ hfinish.known e he)
    refine ⟨?_, ?_, ?_, ?_, ?_⟩
    · simp only [finish, List.map_cons]
      rw [hfinish.outcomes_eq, hrest.outcome_eq, hrest.table]
      rfl
    · intro other hother
      rcases List.mem_cons.mp hother with rfl | hother
      -- The later visits are under other keys.
      · exact (hfinish.kept _ hkeys.1).trans hrest.settled
      · rw [← hrest.table]
        exact hfinish.settled other hother
    · intro key hkey
      rw [List.map_cons, List.mem_cons, not_or] at hkey
      exact (hfinish.kept key hkey.2).trans (hrest.kept key hkey.1)
    · intro other hother
      simp only [finish, said_append]
      rcases List.mem_cons.mp hother with rfl | hother
      · rw [said_map_self, hown, List.append_nil, hrest.seen]
      · rw [said_map_of_ne (hne other hother), List.nil_append, hfinish.seen other hother,
          hrest.table]
    · intro e he
      rcases List.mem_append.mp he with he | he
      · obtain ⟨_, _, rfl⟩ := List.mem_map.mp he
        exact List.mem_cons_self
      · exact List.mem_cons_of_mem _ (hfinish.known e he)

variable {ds : List (Key × SourceFile × Decl)}

/-- What is told interleaves, once all is seen of every visit. -/
theorem interleaves_told {t : Table} (hkeys : (ds.map Prod.fst).Nodup) {trace : List (Key × Event)}
    (hseen : ∀ d ∈ ds, said trace d.1 = t.seen d.2)
    (hknown : ∀ e ∈ trace, e.1 ∈ ds.map Prod.fst) :
    Interleaves (ds.map fun d => t.told d.2)
      ((trace.map Prod.snd).filterMap Event.diagnostic?) := by
  have hwhole : Interleaves _ ((pick Event.diagnostic? trace).map Prod.snd) :=
    interleaves_said hkeys fun e he => by
      obtain ⟨e', he', hkey⟩ := mem_fst_of_mem_pick he
      exact hkey ▸ hknown e' he'
  rw [map_snd_pick] at hwhole
  rwa [List.map_congr_left fun d hd => by
    rw [said_pick, hseen d hd, t.filterMap_diagnostic?_seen]] at hwhole

/-- Whatever turns the visits take, each comes to its end, and what they tell interleaves. -/
theorem completes_visitTogether (hnew : ∀ d ∈ ds, s.states.get? d.1 = none)
    (hkeys : (ds.map Prod.fst).Nodup) (turns : List Nat) :
    (s.visitTogether turns ds).Completes s ds ∧
      Interleaves (ds.map fun d => s.table.told d.2) (s.visitTogether turns ds).diagnostics := by
  have hfits := Crew.fits_turns (Crew.fits_start hnew) hkeys turns
  simp only [visitTogether]
  generalize turns.foldl Crew.turn (.start s ds) = crew at hfits
  have hmap : crew.tasks.map (·.declaration.1) = ds.map Prod.fst := by
    rw [← hfits.declarations, List.map_map]
    rfl
  have hfinish := finishes_finish crew.tasks (hmap ▸ hkeys) fun task htask => by
    obtain ⟨i, hi⟩ := List.getElem?_of_mem htask
    exact hfits.agrees i task hi
  generalize crew.session.finish crew.tasks = r at hfinish
  have hseen : ∀ d ∈ ds, said (crew.events ++ r.2.2) d.1 = s.table.seen d.2 := by
    intro d hd
    rw [← hfits.declarations] at hd
    obtain ⟨task, htask, rfl⟩ := List.mem_map.mp hd
    rw [said_append, hfinish.seen task htask, hfits.table]
  have hknown : ∀ e ∈ crew.events ++ r.2.2, e.1 ∈ ds.map Prod.fst := by
    intro e he
    rcases List.mem_append.mp he with he | he
    · exact hfits.known e he
    · exact hmap ▸ hfinish.known e he
  refine ⟨⟨?_, ?_, ?_⟩, ?_⟩
  · rw [hfinish.outcomes_eq, ← hfits.declarations, List.map_map, hfits.table]
    rfl
  · intro d hd
    rw [← hfits.declarations] at hd
    obtain ⟨task, htask, rfl⟩ := List.mem_map.mp hd
    rw [hfinish.settled task htask, hfits.table]
  · intro key hkey
    exact (hfinish.kept key (hmap ▸ hkey)).trans (hfits.kept key hkey)
  · exact interleaves_told hkeys hseen hknown

/-- With no turns given, the visits are made one after the other. -/
theorem visitTogether_nil (s : Session) (ds : List (Key × SourceFile × Decl)) :
    s.visitTogether [] ds = s.visitAll ds := by
  simp only [visitTogether, List.foldl_nil, Crew.start, List.nil_append]
  induction ds generalizing s with
  | nil => rfl
  | cons d ds ih =>
    rw [visitAll, ← ih]
    simp [finish, rest, visit, Function.comp_def, List.filterMap_map]

end Session

/-! ## Every way to put the parts together -/

namespace Crew

/-- Some turns lead from the one to the other. -/
def Leads (crew crew' : Crew) : Prop := ∃ turns : List Nat, turns.foldl turn crew = crew'

theorem Leads.refl (crew : Crew) : crew.Leads crew := ⟨[], rfl⟩

theorem Leads.trans {a b c : Crew} : a.Leads b → b.Leads c → a.Leads c := by
  rintro ⟨turns, rfl⟩ ⟨more, rfl⟩
  exact ⟨turns ++ more, List.foldl_append⟩

variable {s : Session} {d : Key × SourceFile × Decl} {front back : List Task}
  {events : List (Key × Event)}

theorem leads_begin (hnew : s.states.get? d.1 = none) :
    Leads ⟨s, front ++ ⟨d, .waiting⟩ :: back, events⟩
      ⟨s.put d.1 .visiting, front ++ ⟨d, .begun (s.table.pending d.2)⟩ :: back, events⟩ :=
  ⟨[front.length], by simp [turn, Session.enter_of_new d.2.1 d.2.2 hnew]⟩

section

variable {left : List Event} {settles : Option Progress}
  {outcome : Except Failure (Option FunctionReport)}

theorem leads_see (e : Event) :
    Leads ⟨s, front ++ ⟨d, .begun ⟨e :: left, settles, outcome⟩⟩ :: back, events⟩
      ⟨s, front ++ ⟨d, .begun ⟨left, settles, outcome⟩⟩ :: back, events ++ [(d.1, e)]⟩ :=
  ⟨[front.length], by simp [turn]⟩

theorem leads_note (notes : List Note) :
    Leads ⟨s, front ++ ⟨d, .begun ⟨notes.map .noted ++ left, settles, outcome⟩⟩ :: back, events⟩
      ⟨s, front ++ ⟨d, .begun ⟨left, settles, outcome⟩⟩ :: back,
        events ++ notes.map fun note => (d.1, .noted note)⟩ := by
  induction notes generalizing events with
  | nil =>
    rw [List.map_nil, List.map_nil, List.append_nil]
    exact .refl _
  | cons note notes ih =>
    have hrest := @ih (events ++ [(d.1, .noted note)])
    rw [← List.append_cons] at hrest
    exact (leads_see (.noted note)).trans hrest

end

/-- All that was told, under whichever key. -/
def heard (events : List (Key × Event)) : List Diagnostic :=
  (events.map Prod.snd).filterMap Event.diagnostic?

theorem heard_append_noted (key : Key) (notes : List Note) :
    heard (events ++ notes.map fun note => (key, .noted note)) = heard events := by
  simp [heard, List.filterMap_map, Function.comp_def, Event.diagnostic?]

/-- A visit that has noted everything and has still to tell a part of what it has to tell. -/
def telling (t : Table) (d : Key × SourceFile × Decl) (part : List Diagnostic) : Task :=
  ⟨d, .begun ⟨part.map .told, some (t.settled d.2.2), t.outcome d.2⟩⟩

/-- All visits can begin and note everything before the first of them tells anything. -/
theorem exists_leads_telling (front : List Task) (ds : List (Key × SourceFile × Decl))
    (hnew : ∀ d ∈ ds, s.states.get? d.1 = none) (hkeys : (ds.map Prod.fst).Nodup) :
    ∃ s' events', heard events' = heard events ∧
      Leads ⟨s, front ++ ds.map (fun d => ⟨d, .waiting⟩), events⟩
        ⟨s', front ++ ds.map (fun d => telling s.table d (s.table.told d.2)), events'⟩ := by
  induction ds generalizing s front events with
  | nil => exact ⟨s, events, rfl, .refl _⟩
  | cons d ds ih =>
    rw [List.map_cons, List.nodup_cons] at hkeys
    have hnew' : ∀ e ∈ ds, (s.put d.1 .visiting).states.get? e.1 = none := by
      intro e he
      have hne : e.1 ≠ d.1 := fun heq => hkeys.1 (heq ▸ List.mem_map_of_mem he)
      rw [Session.get?_put_of_ne s _ hne]
      exact hnew e (List.mem_cons_of_mem d he)
    obtain ⟨s', events', hheard, hleads⟩ :=
      ih (front ++ [telling s.table d (s.table.told d.2)]) hnew' hkeys.2
    refine ⟨s', events', hheard.trans (heard_append_noted d.1 (s.table.checkNotes d.2.2)), ?_⟩
    rw [List.append_assoc, List.append_assoc] at hleads
    exact ((leads_begin (hnew d List.mem_cons_self)).trans (leads_note _)).trans hleads

/-- Visits that have only to tell can do so in every way that the parts can be put together. -/
theorem exists_leads_told {t : Table} {parts : List (List Diagnostic)} {whole : List Diagnostic}
    (h : Interleaves parts whole) (ds : List (Key × SourceFile × Decl))
    (hlen : ds.length = parts.length) :
    ∃ events', heard events' = heard events ++ whole ∧
      Leads ⟨s, List.zipWith (telling t) ds parts, events⟩
        ⟨s, ds.map fun d => telling t d [], events'⟩ := by
  induction h generalizing ds events with
  | @nil parts hnil =>
    refine ⟨events, (List.append_nil _).symm, ?_⟩
    have htasks : List.zipWith (telling t) ds parts = ds.map fun d => telling t d [] := by
      refine List.ext_getElem (by simp [hlen]) fun i _ hi => ?_
      have hpart : i < parts.length := by simpa [hlen] using hi
      rw [List.getElem_zipWith, List.getElem_map, hnil _ (List.getElem_mem hpart)]
    rw [htasks]
    exact .refl _
  | @cons front back part whole x _ ih =>
    obtain ⟨before, d, after, rfl, hbefore⟩ : ∃ before d after,
        ds = before ++ d :: after ∧ before.length = front.length := by
      have hlt : front.length < ds.length := by simp [hlen]
      refine ⟨ds.take front.length, ds[front.length], ds.drop (front.length + 1), ?_, ?_⟩
      · rw [← List.drop_eq_getElem_cons hlt, List.take_append_drop]
      · rw [List.length_take, Nat.min_eq_left hlt.le]
    have hlen' : (before ++ d :: after).length = (front ++ part :: back).length := by
      simpa using hlen
    obtain ⟨events', hheard, hleads⟩ := @ih (events ++ [(d.1, .told x)]) _ hlen'
    rw [List.zipWith_append hbefore, List.zipWith_cons_cons] at hleads ⊢
    refine ⟨events', ?_, (leads_see (.told x)).trans hleads⟩
    rw [hheard]
    simp [heard, Event.diagnostic?]

end Crew

namespace Session

theorem finish_told (s : Session) (t : Table) (ds : List (Key × SourceFile × Decl)) :
    (s.finish (ds.map fun d => Crew.telling t d [])).2.2 = [] := by
  induction ds generalizing s with
  | nil => rfl
  | cons d ds ih => exact ih _

/-- What visits at the same time tell is what interleaves, and every way of that comes about. -/
theorem exists_turns_iff {s : Session} {ds : List (Key × SourceFile × Decl)}
    (hnew : ∀ d ∈ ds, s.states.get? d.1 = none) (hkeys : (ds.map Prod.fst).Nodup)
    (whole : List Diagnostic) :
    (∃ turns, (s.visitTogether turns ds).diagnostics = whole) ↔
      Interleaves (ds.map fun d => s.table.told d.2) whole := by
  constructor
  · rintro ⟨turns, rfl⟩
    exact (completes_visitTogether hnew hkeys turns).2
  · intro h
    obtain ⟨s', noted, hnoted, hbegin⟩ := @Crew.exists_leads_telling s [] [] ds hnew hkeys
    obtain ⟨events, htold, htell⟩ :=
      @Crew.exists_leads_told s' noted s.table _ _ h ds (List.length_map _).symm
    rw [List.zipWith_map_right, List.zipWith_self] at htell
    obtain ⟨turns, hturns⟩ := hbegin.trans htell
    refine ⟨turns, ?_⟩
    rw [List.nil_append] at hturns
    simp only [visitTogether, Crew.start, hturns, finish_told, List.append_nil]
    exact htold.trans (congrArg (· ++ whole) hnoted)

end Session

end Purity
