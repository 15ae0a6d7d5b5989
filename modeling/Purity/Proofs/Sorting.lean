-- The laws of sorted diagnostics. They are sorted by place, severity and message, and the sort is
-- stable. So the order in which functions are visited does not show, except between diagnostics
-- that the comparison does not tell apart: the function is not compared, and a path can be spelled
-- in several ways.
import Purity.Proofs.Account

namespace Purity

open Std (TransCmp LawfulEqCmp)

/-! ## The comparison -/

/-- A comparison of images is as good as that of the values. -/
theorem transCmp_comap {α β : Type} (cmp : β → β → Ordering) [TransCmp cmp] (f : α → β) :
    TransCmp fun a b => cmp (f a) (f b) where
  eq_swap := Std.OrientedCmp.eq_swap
  isLE_trans := TransCmp.isLE_trans

namespace Component

instance : TransCmp compare :=
  have := transCmp_comap Ord.compare rank
  have := transCmp_comap Ord.compare text
  inferInstanceAs (TransCmp (compareLex (fun a b : Component => Ord.compare a.rank b.rank)
    fun a b => Ord.compare a.text b.text))

instance : LawfulEqCmp compare where
  compare_self := Std.ReflCmp.compare_self
  eq_of_compare := by
    intro a b h
    obtain ⟨hrank, htext⟩ := Ordering.then_eq_eq.mp h
    rw [LawfulEqCmp.compare_eq_iff_eq] at hrank htext
    cases a <;> cases b <;> simp_all [rank, text]

end Component

/-- What the order of diagnostics looks at. -/
structure SortKey where
  path : List Component
  line : UInt64
  column : UInt64
  severity : Severity
  message : String
  deriving DecidableEq

namespace SortKey

/-- Keys compare by path, line and column, then by severity, then by message. -/
def compare (a b : SortKey) : Ordering :=
  ((List.compareLex Component.compare a.path b.path).then
    ((Ord.compare a.line b.line).then (Ord.compare a.column b.column))).then
    ((Ord.compare a.severity.rank b.severity.rank).then (Ord.compare a.message b.message))

instance : TransCmp compare :=
  have := transCmp_comap (List.compareLex Component.compare) path
  have := transCmp_comap Ord.compare line
  have := transCmp_comap Ord.compare column
  have := transCmp_comap Ord.compare fun k : SortKey => k.severity.rank
  have := transCmp_comap Ord.compare message
  inferInstanceAs (TransCmp (compareLex
    (compareLex (fun a b : SortKey => List.compareLex Component.compare a.path b.path)
      (compareLex (fun a b => Ord.compare a.line b.line) fun a b => Ord.compare a.column b.column))
    (compareLex (fun a b => Ord.compare a.severity.rank b.severity.rank)
      fun a b => Ord.compare a.message b.message)))

/-- No two keys tie. -/
instance : LawfulEqCmp compare where
  compare_self := Std.ReflCmp.compare_self
  eq_of_compare := by
    intro a b h
    simp only [compare, Ordering.then_eq_eq, LawfulEqCmp.compare_eq_iff_eq] at h
    obtain ⟨⟨hpath, hline, hcolumn⟩, hrank, hmessage⟩ := h
    have hseverity : a.severity = b.severity := by
      cases ha : a.severity <;> cases hb : b.severity <;> simp_all [Severity.rank]
    cases a
    cases b
    simp_all

end SortKey

namespace Diagnostic

/-- The key by which a diagnostic is sorted. -/
def sortKey (d : Diagnostic) : SortKey :=
  ⟨Path.components d.location.file, d.location.line, d.location.column, d.severity, d.message⟩

/-- Diagnostics compare as their keys do. -/
theorem compare_eq (a b : Diagnostic) : a.compare b = a.sortKey.compare b.sortKey := rfl

instance : TransCmp compare := transCmp_comap SortKey.compare sortKey

/-- Just the diagnostics with one key tie. -/
theorem compare_eq_eq_iff {a b : Diagnostic} : a.compare b = .eq ↔ a.sortKey = b.sortKey := by
  rw [compare_eq, LawfulEqCmp.compare_eq_iff_eq]

theorem isLE_total (a b : Diagnostic) : ((a.compare b).isLE || (b.compare a).isLE) = true := by
  have hswap : b.compare a = (a.compare b).swap := Std.OrientedCmp.eq_swap
  rw [hswap]
  cases a.compare b <;> rfl

/-- Diagnostics with one key differ at most in the spelling of the path and in the function. -/
theorem eq_of_sortKey {a b : Diagnostic} (h : a.sortKey = b.sortKey)
    (hpath : a.location.file = b.location.file) (hfunction : a.function = b.function) : a = b := by
  obtain ⟨severity, message, ⟨file, line, column⟩, function⟩ := a
  obtain ⟨severity', message', ⟨file', line', column'⟩, function'⟩ := b
  simp_all [sortKey]

/-! ## Sorting -/

theorem sort_perm (ds : List Diagnostic) : (sort ds).Perm ds := List.mergeSort_perm ds _

theorem pairwise_sort (ds : List Diagnostic) :
    (sort ds).Pairwise fun a b => (a.compare b).isLE = true :=
  List.pairwise_mergeSort (fun _ _ _ => TransCmp.isLE_trans) isLE_total ds

/-- Diagnostics with one key are in order, however they come. -/
theorem pairwise_of_ties {ds : List Diagnostic} {k : SortKey} (h : ∀ d ∈ ds, d.sortKey = k) :
    ds.Pairwise fun a b => (a.compare b).isLE = true := by
  refine List.pairwise_of_forall_mem_list fun a ha b hb => ?_
  rw [compare_eq_eq_iff.mpr ((h a ha).trans (h b hb).symm)]
  rfl

/-- Diagnostics with one key stay in the order in which they came. -/
theorem filter_sort (ds : List Diagnostic) (k : SortKey) :
    (sort ds).filter (·.sortKey = k) = ds.filter (·.sortKey = k) := by
  have hties : (ds.filter (·.sortKey = k)).Pairwise fun a b => (a.compare b).isLE = true :=
    pairwise_of_ties fun d hd => of_decide_eq_true (List.mem_filter.mp hd).2
  -- The ties are a sorted part of the list, and a stable sort keeps such a part in one order.
  have hsub : (ds.filter (·.sortKey = k)).Sublist (sort ds) :=
    List.sublist_mergeSort (fun _ _ _ => TransCmp.isLE_trans) isLE_total hties
      List.filter_sublist
  have hfilter := hsub.filter (·.sortKey = k)
  simp only [List.filter_filter, Bool.and_self] at hfilter
  exact (hfilter.eq_of_length ((sort_perm ds).filter _).length_eq.symm).symm

/-- Whatever the order in which diagnostics come, they are sorted to the same keys. -/
theorem map_sortKey_sort_of_perm {ds ds' : List Diagnostic} (h : ds.Perm ds') :
    (sort ds).map sortKey = (sort ds').map sortKey := by
  have hsorted : ∀ l : List Diagnostic,
      ((sort l).map sortKey).Pairwise fun j k => (j.compare k).isLE = true :=
    fun l => List.pairwise_map.mpr (pairwise_sort l)
  refine List.Perm.eq_of_pairwise ?_ (hsorted ds) (hsorted ds') ?_
  · intro j k _ _ hjk hkj
    exact LawfulEqCmp.eq_of_compare (Std.OrientedCmp.isLE_antisymm hjk hkj)
  · exact ((sort_perm ds).trans (h.trans (sort_perm ds').symm)).map sortKey

/-- Where no two diagnostics tie, the order in which they come does not show. -/
theorem sort_eq_of_perm {ds ds' : List Diagnostic} (h : ds.Perm ds')
    (hties : ∀ a ∈ ds, ∀ b ∈ ds, a.sortKey = b.sortKey → a = b) : sort ds = sort ds' := by
  have hperm := (sort_perm ds).trans (h.trans (sort_perm ds').symm)
  refine List.Perm.eq_of_pairwise ?_ (pairwise_sort ds) (pairwise_sort ds') hperm
  intro a b ha hb hab hba
  have ha' : a ∈ ds := (sort_perm ds).mem_iff.mp ha
  have hb' : b ∈ ds := h.mem_iff.mpr ((sort_perm ds').mem_iff.mp hb)
  exact hties a ha' b hb' (compare_eq_eq_iff.mp (Std.OrientedCmp.isLE_antisymm hab hba))

end Diagnostic

/-! ## Visits in another order -/

namespace Table

/-- All that is told of a function is told of one path and under one id. -/
theorem origin_of_mem_told {t : Table} {d : SourceFile × Decl} {x : Diagnostic}
    (h : x ∈ t.told d) : x.location.file = d.1.path ∧ x.function = d.2.id := by
  rcases t.check_cases d.1 d.2 with ⟨_, hc⟩ | ⟨_, _, hc⟩ | ⟨_, _, _, hc⟩ | ⟨_, _, hc⟩
  · simp [told_of_check hc] at h
  · rw [told_of_check hc] at h
    obtain ⟨f, _, rfl⟩ := List.mem_map.mp h
    exact ⟨rfl, rfl⟩
  · rw [told_of_check hc] at h
    obtain rfl := List.mem_singleton.mp h
    exact ⟨rfl, rfl⟩
  · simp [told_of_check hc] at h

/-- Of what is told of one function, diagnostics that tie are the same. -/
theorem eq_of_mem_told {t : Table} {d : SourceFile × Decl} {x y : Diagnostic}
    (hx : x ∈ t.told d) (hy : y ∈ t.told d) (h : x.sortKey = y.sortKey) : x = y := by
  obtain ⟨hxpath, hxid⟩ := origin_of_mem_told hx
  obtain ⟨hypath, hyid⟩ := origin_of_mem_told hy
  exact Diagnostic.eq_of_sortKey h (hxpath.trans hypath.symm) (hxid.trans hyid.symm)

/-- Where a function is visited first, what it is told comes first among what ties with it. -/
theorem head?_filter_told {t : Table} {d : SourceFile × Decl} {x : Diagnostic}
    (h : x ∈ t.told d) (later : List Diagnostic) :
    ((t.told d ++ later).filter (·.sortKey = x.sortKey)).head? = some x := by
  have hmem : x ∈ (t.told d).filter (·.sortKey = x.sortKey) :=
    List.mem_filter.mpr ⟨h, decide_eq_true rfl⟩
  rw [List.filter_append]
  rcases hties : (t.told d).filter (·.sortKey = x.sortKey) with _ | ⟨y, ys⟩
  · rw [hties] at hmem
    exact absurd hmem List.not_mem_nil
  · have hy : y ∈ (t.told d).filter (·.sortKey = x.sortKey) := hties ▸ List.mem_cons_self
    rw [List.mem_filter, decide_eq_true_eq] at hy
    rw [hties, List.cons_append, List.head?_cons, eq_of_mem_told hy.1 h hy.2]

/-- If two functions can be visited either way round and it does not show, then what is told of the
one and ties with what is told of the other is the same. -/
theorem eq_of_sort_swap {t : Table} {d e : SourceFile × Decl} {x y : Diagnostic}
    (hx : x ∈ t.told d) (hy : y ∈ t.told e) (hkey : x.sortKey = y.sortKey)
    (later : List Diagnostic)
    (h : Diagnostic.sort (t.told d ++ (t.told e ++ later)) =
      Diagnostic.sort (t.told e ++ (t.told d ++ later))) : x = y := by
  have hfilter : (t.told d ++ (t.told e ++ later)).filter (·.sortKey = x.sortKey) =
      (t.told e ++ (t.told d ++ later)).filter (·.sortKey = x.sortKey) := by
    rw [← Diagnostic.filter_sort, h, Diagnostic.filter_sort]
  have hhead := head?_filter_told hx (t.told e ++ later)
  rw [hfilter, hkey, head?_filter_told hy] at hhead
  exact (Option.some.inj hhead).symm

end Table

namespace Checker

/-- The output for a module whose declarations are visited in the given order. The report has the
functions in the order of the module all the same. -/
def outputVia (c : Checker) (m : Module) (order : List (Key × SourceFile × Decl)) : CheckOutput :=
  let tour := (Session.start c.table).visitAll order
  ⟨m.name, Diagnostic.sort tour.diagnostics, .ofTour (tour.arranged m.declarations)⟩

variable {m : Module} {order order' : List (Key × SourceFile × Decl)}

/-- A checker that is enabled visits the declarations in their own order. -/
theorem outputVia_declarations {c : Config} (h : c.enabled = true) (m : Module) :
    (ofConfig c).outputVia m m.declarations = (ofConfig c).output m := by
  obtain ⟨hreport, hdiagnostics⟩ := run_in_order m [] h (.inr rfl)
  rw [output, hreport, hdiagnostics, outputVia, ModuleReport.ofTour_arranged _ (.refl _)]
  rfl

theorem outputVia_report (c : Checker) (h : order.Perm m.declarations)
    (h' : order'.Perm m.declarations) :
    (c.outputVia m order).report = (c.outputVia m order').report :=
  (ModuleReport.ofTour_arranged c.table h).trans (ModuleReport.ofTour_arranged c.table h').symm

theorem outputVia_diagnostics (c : Checker) (h : order.Perm m.declarations) :
    (c.outputVia m order).diagnostics =
      Diagnostic.sort (order.flatMap fun d => c.table.told d.2) :=
  congrArg Diagnostic.sort (Session.covers_of_perm c.table h).diagnostics_eq

/-- Where no two diagnostics tie, no order of the visits shows. -/
theorem outputVia_eq (c : Checker) (h : order.Perm m.declarations)
    (h' : order'.Perm m.declarations)
    (hties : ∀ x ∈ m.declarations.flatMap fun d => c.table.told d.2,
      ∀ y ∈ m.declarations.flatMap fun d => c.table.told d.2, x.sortKey = y.sortKey → x = y) :
    c.outputVia m order = c.outputVia m order' := by
  have hmem := fun x => (h.flatMap_right fun d => c.table.told d.2).mem_iff (a := x)
  have hdiagnostics : (c.outputVia m order).diagnostics = (c.outputVia m order').diagnostics := by
    rw [outputVia_diagnostics c h, outputVia_diagnostics c h']
    refine Diagnostic.sort_eq_of_perm ((h.trans h'.symm).flatMap_right _) ?_
    intro x hx y hy
    exact hties x ((hmem x).mp hx) y ((hmem y).mp hy)
  exact CheckOutput.mk.injEq .. ▸ ⟨rfl, hdiagnostics, outputVia_report c h h'⟩

/-- If no order of the visits shows, then what ties is the same. -/
theorem eq_of_outputVia_eq (c : Checker)
    (h : ∀ order order', order.Perm m.declarations → order'.Perm m.declarations →
      (c.outputVia m order).diagnostics = (c.outputVia m order').diagnostics)
    {d e : Key × SourceFile × Decl} (hd : d ∈ m.declarations) (he : e ∈ m.declarations)
    {x y : Diagnostic} (hx : x ∈ c.table.told d.2) (hy : y ∈ c.table.told e.2)
    (hkey : x.sortKey = y.sortKey) : x = y := by
  classical
  by_cases hde : d = e
  · subst hde
    exact Table.eq_of_mem_told hx hy hkey
  -- The two are visited first, once one way round and once the other.
  · have hfirst : (d :: e :: (m.declarations.erase d).erase e).Perm m.declarations := by
      have he' := (List.mem_erase_of_ne (Ne.symm hde)).mpr he
      exact ((List.perm_cons_erase he').symm.cons d).trans (List.perm_cons_erase hd).symm
    have hsecond := (List.Perm.swap d e ((m.declarations.erase d).erase e)).trans hfirst
    have hsame := h _ _ hfirst hsecond
    rw [outputVia_diagnostics c hfirst, outputVia_diagnostics c hsecond] at hsame
    exact Table.eq_of_sort_swap hx hy hkey _ hsame

/-- Whatever turns the visits take, the report is the same and the same is told. -/
theorem run_perm {c : Config} (h : c.enabled = true) (m : Module) (turns : List Nat) :
    ((ofConfig c).run m turns).report = ((ofConfig c).run m).report ∧
      ((ofConfig c).run m turns).diagnostics.Perm ((ofConfig c).run m).diagnostics := by
  rw [run_report m turns h, run_report m [] h]
  exact ⟨rfl, (run_diagnostics_perm m turns h).trans (run_diagnostics_perm m [] h).symm⟩

end Checker

/-! ## The law -/

/-- Whatever the order of the visits, the report of a module is the same, and the diagnostics are
sorted to the same paths, lines, columns, severities and messages. They are the same diagnostics for
every order just when no two different ones of the module agree in all of these, and then the text
is the same too. If two agree, and differ in the function or in the spelling of the path, then the
order shows. The same holds for whatever turns the visits take if they are made at the same
time. -/
theorem the_order_of_visits_shows_just_in_ties (c : Config) (m : Module) (h : c.enabled = true) :
    let checker := Checker.ofConfig c
    let via := checker.outputVia m
    let toldApart := ∀ x ∈ (checker.run m).diagnostics, ∀ y ∈ (checker.run m).diagnostics,
      x.sortKey = y.sortKey → x = y
    via m.declarations = checker.output m ∧
      (∀ order order', order.Perm m.declarations → order'.Perm m.declarations →
        (via order).report = (via order').report ∧
          (via order).diagnostics.map (·.sortKey) = (via order').diagnostics.map (·.sortKey)) ∧
      ((∀ order order', order.Perm m.declarations → order'.Perm m.declarations →
          (via order).diagnostics = (via order').diagnostics) ↔ toldApart) ∧
      (toldApart → ∀ order order', order.Perm m.declarations → order'.Perm m.declarations →
        (via order).jsonText = (via order').jsonText) ∧
      ∀ turns, (checker.output m turns).report = (checker.output m).report ∧
        (checker.output m turns).diagnostics.map (·.sortKey) =
          (checker.output m).diagnostics.map (·.sortKey) ∧
        (toldApart → checker.output m turns = checker.output m) := by
  intro checker via toldApart
  have htold : (checker.run m).diagnostics =
      m.declarations.flatMap fun d => c.table.told d.2 :=
    (Checker.run_in_order m [] h (.inr rfl)).2.trans
      (Session.covers_of_perm c.table (.refl m.declarations)).diagnostics_eq
  refine ⟨Checker.outputVia_declarations h m, ?_, ⟨?_, ?_⟩, ?_, ?_⟩
  · intro order order' ho ho'
    refine ⟨Checker.outputVia_report checker ho ho', ?_⟩
    rw [Checker.outputVia_diagnostics checker ho, Checker.outputVia_diagnostics checker ho']
    exact Diagnostic.map_sortKey_sort_of_perm ((ho.trans ho'.symm).flatMap_right _)
  · intro hsame x hx y hy hkey
    rw [htold, List.mem_flatMap] at hx hy
    obtain ⟨d, hd, hx⟩ := hx
    obtain ⟨e, he, hy⟩ := hy
    exact Checker.eq_of_outputVia_eq checker hsame hd he hx hy hkey
  · intro hapart order order' ho ho'
    exact congrArg _ (Checker.outputVia_eq checker ho ho' (htold ▸ hapart))
  · intro hapart order order' ho ho'
    exact congrArg _ (Checker.outputVia_eq checker ho ho' (htold ▸ hapart))
  · intro turns
    obtain ⟨hreport, hperm⟩ := Checker.run_perm h m turns
    refine ⟨hreport, Diagnostic.map_sortKey_sort_of_perm hperm, fun hapart => ?_⟩
    have hsort := Diagnostic.sort_eq_of_perm hperm.symm hapart
    rw [Checker.output, Checker.output, hreport, hsort]

theorem no_order_of_visits_shows_for_overloads :
    ({} : Config).enabled = true ∧
      ∀ order, order.Perm overloads.declarations →
        ((Checker.ofConfig {}).outputVia overloads order).jsonText =
          ((Checker.ofConfig {}).output overloads).jsonText := by
  obtain ⟨hown, _, _, htext, _⟩ := the_order_of_visits_shows_just_in_ties {} overloads rfl
  refine ⟨rfl, fun order ho => ?_⟩
  rw [← hown]
  exact htext (by decide +kernel) order _ ho (.refl _)

/-- Two files under one path that is spelled in two ways, with a function at the start of each. -/
def twoSpellings : Module :=
  ⟨"m", ["a/b.kt", "a//b.kt"].map fun path =>
    ⟨path, [0], [⟨"m.f", .ofName "f", [], some (.const 0 .null), 0⟩]⟩⟩

theorem the_order_of_visits_shows_for_two_spellings :
    twoSpellings.declarations.reverse.Perm twoSpellings.declarations ∧
      ((Checker.ofConfig {}).outputVia twoSpellings twoSpellings.declarations.reverse).diagnostics ≠
        ((Checker.ofConfig {}).outputVia twoSpellings twoSpellings.declarations).diagnostics := by
  have hback := List.reverse_perm twoSpellings.declarations
  refine ⟨hback, ?_⟩
  rw [Checker.outputVia_diagnostics _ hback, Checker.outputVia_diagnostics _ (.refl _)]
  -- The two tie, so that either way round they are in order already.
  have htie : ∀ x ∈ twoSpellings.declarations.flatMap fun d => (Checker.ofConfig {}).table.told d.2,
      x.sortKey = ⟨[.name "a", .name "b.kt"], 1, 1, .info, suggestionText "f" .pure⟩ := by
    decide +kernel
  have htie' := fun x hx => htie x ((hback.flatMap_right _).mem_iff.mp hx)
  rw [Diagnostic.sort, Diagnostic.sort,
    List.mergeSort_of_pairwise (Diagnostic.pairwise_of_ties htie),
    List.mergeSort_of_pairwise (Diagnostic.pairwise_of_ties htie')]
  decide +kernel

end Purity
