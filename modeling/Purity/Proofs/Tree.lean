-- The nodes of an expression, read off its children alone: a node comes first, then the nodes of
-- each child, from left to right. The recursion of `nodes` and the count of nodes agree with it.
import Mathlib.Data.List.Basic
import Purity.Expr

namespace Purity.Expr

/-! ## Children are smaller -/

theorem sizeOf_lt_of_mem_toList {r : Option Expr} {c : Expr} (h : c ∈ r.toList) :
    sizeOf c < sizeOf r := by
  rw [Option.mem_toList] at h
  subst h
  simp

theorem sizeOf_child_lt {e c : Expr} (h : c ∈ e.children) : sizeOf c < sizeOf e := by
  cases e with
  | const o v => simp [children] at h
  | get o v => simp [children] at h
  | set o v value =>
    rw [children, List.mem_singleton] at h
    subst h
    simp +arith
  | call o callee receiver arguments =>
    rw [children, List.mem_append] at h
    simp only [call.sizeOf_spec]
    rcases h with h | h
    · have := sizeOf_lt_of_mem_toList h
      omega
    · have := List.sizeOf_lt_of_mem h
      omega
  | ret o value =>
    rw [children, List.mem_singleton] at h
    subst h
    simp +arith
  | cast o operand type =>
    rw [children, List.mem_singleton] at h
    subst h
    simp +arith
  | block o statements =>
    rw [children] at h
    have := List.sizeOf_lt_of_mem h
    simp only [block.sizeOf_spec]
    omega
  | declare o v initial =>
    rw [children] at h
    have := sizeOf_lt_of_mem_toList h
    simp only [declare.sizeOf_spec]
    omega
  | unhandled o node inside =>
    rw [children] at h
    have := List.sizeOf_lt_of_mem h
    simp only [unhandled.sizeOf_spec]
    omega

/-! ## The nodes in order -/

/-- An expression, then the nodes of its children one after the other. -/
def preorder (e : Expr) : List Expr := e :: e.children.attach.flatMap fun c => preorder c.1
termination_by sizeOf e
decreasing_by exact sizeOf_child_lt c.2

theorem preorder_eq (e : Expr) : e.preorder = e :: e.children.flatMap preorder := by
  rw [preorder, List.flatMap_subtype (g := preorder) fun _ _ => rfl, List.unattach_attach]

/-- What holds of an expression whenever it holds of its children holds of every expression. -/
theorem childrenInduction {motive : Expr → Prop}
    (step : ∀ e, (∀ c ∈ e.children, motive c) → motive e) (e : Expr) : motive e := by
  induction e using preorder.induct with
  | case1 e ih => exact step e fun c hc => ih ⟨c, hc⟩

/-! ## The recursion over the constructors -/

theorem nodes_eq_preorder (e : Expr) : e.nodes = e.preorder := by
  induction e using childrenInduction with
  | step e ih => rw [nodes_eq, preorder_eq, List.flatMap_congr ih]

theorem length_preorder (e : Expr) : e.preorder.length = e.nodeCount := by
  induction e using childrenInduction with
  | step e ih =>
    rw [preorder_eq, nodeCount_eq, List.length_cons, List.length_flatMap, List.map_congr_left ih,
      Nat.add_comm, List.sum_eq_foldr]

end Purity.Expr
