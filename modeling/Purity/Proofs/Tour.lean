-- The laws of a series of visits in which every declaration has a key of its own, as the
-- declarations of a module have. No visit then meets what another has left behind: each gives what
-- the check of its declaration gives, and the order decides only where in the whole that stands.
import Mathlib.Data.List.Nodup
import Purity.Proofs.Declarations
import Purity.Proofs.Visits

namespace Purity

/-! ## What a check gives -/

namespace Table

/-- What a tour puts down of the visit of a declaration. -/
def entry (t : Table) (d : Key × SourceFile × Decl) :
    Key × String × Except Failure (Option FunctionReport) :=
  (d.1, d.2.2.id, t.outcome d.2)

end Table

/-! ## Visits under new keys -/

/-- A tour of declarations from a session that knew none of them has the outcome of each check
alone, in the order of the declarations, and has settled just their keys. -/
structure Session.Tour.Completes (s : Session) (ds : List (Key × SourceFile × Decl))
    (tour : Session.Tour) : Prop where
  outcomes_eq : tour.outcomes = ds.map s.table.entry
  settled : ∀ d ∈ ds, tour.session.states.get? d.1 = some (s.table.settled d.2.2)
  kept : ∀ key, key ∉ ds.map Prod.fst → tour.session.states.get? key = s.states.get? key

/-- All is told in the order of the declarations, too. -/
structure Session.Tour.Covers (s : Session) (ds : List (Key × SourceFile × Decl))
    (tour : Session.Tour) : Prop extends tour.Completes s ds where
  diagnostics_eq : tour.diagnostics = ds.flatMap fun d => s.table.told d.2

namespace Session

/-- A first visit, then a tour that starts from where it ends. -/
theorem covers_cons {s : Session} {d : Key × SourceFile × Decl}
    {ds : List (Key × SourceFile × Decl)} (hd : s.states.get? d.1 = none)
    (hkey : d.1 ∉ ds.map Prod.fst)
    (h : ((s.visit d.1 d.2.1 d.2.2).session.visitAll ds).Covers
      (s.visit d.1 d.2.1 d.2.2).session ds) :
    (s.visitAll (d :: ds)).Covers s (d :: ds) := by
  obtain ⟨ht, hs, ho, hi⟩ := visit_of_new d.2.1 d.2.2 hd
  refine ⟨⟨?_, ?_, ?_⟩, ?_⟩
  · rw [visitAll, h.outcomes_eq, ht, ho]
    rfl
  · intro e he
    rcases List.mem_cons.mp he with rfl | he
    -- The later visits are under other keys.
    · rw [visitAll, h.kept _ hkey, hs, if_pos rfl]
    · rw [visitAll, h.settled e he, ht]
  · intro key hk
    rw [List.map_cons, List.mem_cons, not_or] at hk
    rw [visitAll, h.kept key hk.2, hs, if_neg hk.1]
  · rw [visitAll, h.diagnostics_eq, ht, hi]
    rfl

theorem covers_visitAll {s : Session} (ds : List (Key × SourceFile × Decl))
    (hnew : ∀ d ∈ ds, s.states.get? d.1 = none) (hkeys : (ds.map Prod.fst).Nodup) :
    (s.visitAll ds).Covers s ds := by
  induction ds generalizing s with
  | nil => exact ⟨⟨rfl, by simp, fun _ _ => rfl⟩, rfl⟩
  | cons d ds ih =>
    rw [List.map_cons, List.nodup_cons] at hkeys
    have hd := hnew d List.mem_cons_self
    refine covers_cons hd hkeys.1 (ih ?_ hkeys.2)
    intro e he
    have hne : e.1 ≠ d.1 := fun heq => hkeys.1 (heq ▸ List.mem_map_of_mem he)
    rw [(visit_of_new d.2.1 d.2.2 hd).2.1, if_neg hne]
    exact hnew e (List.mem_cons_of_mem d he)

/-- A new session covers the declarations of a module, in whatever order it visits them. -/
theorem covers_of_perm (t : Table) {m : Module} {order : List (Key × SourceFile × Decl)}
    (h : order.Perm m.declarations) : ((start t).visitAll order).Covers (start t) order :=
  covers_visitAll order (fun _ _ => rfl) ((h.map Prod.fst).nodup_iff.mpr m.nodup_keys)

end Session

/-! ## Visits in another order -/

namespace Session.Tour

/-- The tour with its outcomes in the order of the given declarations, each under its key. -/
def arranged (tour : Tour) (ds : List (Key × SourceFile × Decl)) : Tour :=
  { tour with outcomes := ds.filterMap fun d => (tour.outcomes.lookup d.1).map fun o => (d.1, o) }

variable {s : Session} {ds : List (Key × SourceFile × Decl)} {tour : Tour}

/-- A declaration's outcome is found under its key. -/
theorem Completes.lookup_of_mem (h : tour.Completes s ds) (hkeys : (ds.map Prod.fst).Nodup)
    {d : Key × SourceFile × Decl} (hd : d ∈ ds) :
    tour.outcomes.lookup d.1 = some (s.table.entry d).2 := by
  rw [h.outcomes_eq]
  refine Entries.lookup_of_mem ?_ (List.mem_map_of_mem hd)
  rw [List.map_map]
  exact hkeys

theorem Completes.lookup_of_not_mem (h : tour.Completes s ds) {key : Key}
    (hk : key ∉ ds.map Prod.fst) : tour.outcomes.lookup key = none := by
  rw [h.outcomes_eq, List.lookup_eq_none_iff]
  intro e he
  obtain ⟨d, hd, rfl⟩ := List.mem_map.mp he
  have hne : key ≠ d.1 := fun heq => hk (heq ▸ List.mem_map_of_mem hd)
  exact bne_iff_ne.mpr hne

variable {ds' : List (Key × SourceFile × Decl)} {tour' : Tour}

theorem Completes.lookup_eq (h : tour.Completes s ds) (h' : tour'.Completes s ds') (hp : ds'.Perm ds)
    (hkeys : (ds.map Prod.fst).Nodup) (key : Key) :
    tour'.outcomes.lookup key = tour.outcomes.lookup key := by
  have hmem := (hp.map Prod.fst).mem_iff (a := key)
  by_cases hk : key ∈ ds.map Prod.fst
  · obtain ⟨d, hd, rfl⟩ := List.mem_map.mp hk
    rw [h.lookup_of_mem hkeys hd,
      h'.lookup_of_mem ((hp.map Prod.fst).nodup_iff.mpr hkeys) (hp.mem_iff.mpr hd)]
  · rw [h.lookup_of_not_mem hk, h'.lookup_of_not_mem fun hk' => hk (hmem.mp hk')]

theorem Completes.progress_eq (h : tour.Completes s ds) (h' : tour'.Completes s ds') (hp : ds'.Perm ds)
    (key : Key) : tour'.session.progress key = tour.session.progress key := by
  have hmem := (hp.map Prod.fst).mem_iff (a := key)
  unfold progress
  by_cases hk : key ∈ ds.map Prod.fst
  · obtain ⟨d, hd, rfl⟩ := List.mem_map.mp hk
    rw [h.settled d hd, h'.settled d (hp.mem_iff.mpr hd)]
  · rw [h.kept key hk, h'.kept key fun hk' => hk (hmem.mp hk')]

/-- Put back in the order of the declarations, the outcomes are those of a tour in that order. -/
theorem Completes.outcomes_arranged (h : tour.Completes s ds) (h' : tour'.Completes s ds')
    (hp : ds'.Perm ds) (hkeys : (ds.map Prod.fst).Nodup) :
    (tour'.arranged ds).outcomes = tour.outcomes := by
  have hentry : ∀ d ∈ ds, ((tour'.outcomes.lookup d.1).map fun o => (d.1, o)) =
      some (s.table.entry d) := by
    intro d hd
    rw [h.lookup_eq h' hp hkeys, h.lookup_of_mem hkeys hd]
    rfl
  unfold arranged
  rw [h.outcomes_eq, List.filterMap_congr hentry]
  exact congrFun List.filterMap_eq_map' ds

end Session.Tour

/-- A report is made of the outcomes, and of how far the session is. -/
theorem ModuleReport.ofTour_congr {tour tour' : Session.Tour}
    (ho : tour'.outcomes = tour.outcomes)
    (hp : ∀ key, tour'.session.progress key = tour.session.progress key) :
    ofTour tour' = ofTour tour := by
  have hs : wasSkipped tour'.session = wasSkipped tour.session := by
    funext visit
    simp only [wasSkipped, hp]
  simp only [ofTour, ho, hs]

/-- The report of a module does not depend on the order of the visits. -/
theorem ModuleReport.ofTour_arranged (t : Table) {m : Module}
    {order : List (Key × SourceFile × Decl)} (h : order.Perm m.declarations) :
    ofTour (((Session.start t).visitAll order).arranged m.declarations) =
      ofTour ((Session.start t).visitAll m.declarations) := by
  have hplain := (Session.covers_of_perm t (.refl m.declarations)).toCompletes
  have htour := (Session.covers_of_perm t h).toCompletes
  have hprogress := hplain.progress_eq htour h
  exact ofTour_congr (hplain.outcomes_arranged htour h m.nodup_keys) hprogress

/-! ## The law -/

/-- The declarations of a module may be visited in any order. Under each key the visit returns the
same and leaves the session as far, the report made of the outcomes in the order of the declarations
is the same, and the same is told, each declaration's part in one piece and in its own order: only
the order of the parts is that of the visits. -/
theorem the_order_of_visits_only_moves_what_is_told (t : Table) (m : Module)
    (order : List (Key × SourceFile × Decl)) (h : order.Perm m.declarations) :
    let plain := (Session.start t).visitAll m.declarations
    let tour := (Session.start t).visitAll order
    tour.outcomes.Perm plain.outcomes ∧
      (∀ key, tour.outcomes.lookup key = plain.outcomes.lookup key) ∧
      (∀ key, tour.session.progress key = plain.session.progress key) ∧
      ModuleReport.ofTour (tour.arranged m.declarations) = ModuleReport.ofTour plain ∧
      tour.diagnostics.Perm plain.diagnostics ∧
      (let told (d : Key × SourceFile × Decl) := Session.diagnosticsOf (t.check d.2.1 d.2.2)
      tour.diagnostics = order.flatMap told ∧ plain.diagnostics = m.declarations.flatMap told) := by
  intro plain tour
  have hp : plain.Covers (.start t) m.declarations := Session.covers_of_perm t (.refl _)
  have ht : tour.Covers (.start t) order := Session.covers_of_perm t h
  refine ⟨?_, hp.lookup_eq ht.toCompletes h m.nodup_keys, hp.progress_eq ht.toCompletes h,
    ModuleReport.ofTour_arranged t h, ?_, ht.diagnostics_eq, hp.diagnostics_eq⟩
  · rw [ht.outcomes_eq, hp.outcomes_eq]
    exact h.map _
  · rw [ht.diagnostics_eq, hp.diagnostics_eq]
    exact h.flatMap_right _

/-- Three functions under one id in two files: one that breaks its contract, one that could have a
contract, and one without a body. -/
def overloads : Module :=
  ⟨"m",
    [⟨"A.kt", [0],
      [⟨"m.f", ⟨"f", none, [.contractPure]⟩, [], some (.call 4 (.ofName "launch") none []), 0⟩,
        ⟨"m.f", .ofName "f", [], some (.const 9 .null), 7⟩]⟩,
      ⟨"B.kt", [0], [⟨"m.f", .ofName "f", [], none, 0⟩]⟩]⟩

theorem overloads_backwards_give_the_same_report :
    overloads.declarations.reverse.Perm overloads.declarations ∧
      ModuleReport.ofTour
          (((Session.start .default).visitAll overloads.declarations.reverse).arranged
            overloads.declarations) =
        ⟨[⟨"m.f", .pure, .none, false, 1, false⟩, ⟨"m.f", .none, .pure, false, 0, true⟩], 1,
          []⟩ := by
  have h := List.reverse_perm overloads.declarations
  refine ⟨h, ?_⟩
  rw [(the_order_of_visits_only_moves_what_is_told .default overloads _ h).2.2.2.1]
  decide

end Purity
