-- Parts that are put together by many at a time. Each part keeps its own order, and nothing is lost
-- or added, but where one part goes on between the others is open.
import Mathlib.Data.List.Nodup

namespace Purity

variable {α : Type}

/-! ## The relation -/

/-- The whole is made of the parts: it always goes on with what is next in one of them. -/
inductive Interleaves : List (List α) → List α → Prop
  | nil {parts : List (List α)} (h : ∀ part ∈ parts, part = []) : Interleaves parts []
  | cons (front : List (List α)) {back : List (List α)} {part whole : List α} (x : α)
      (h : Interleaves (front ++ part :: back) whole) :
      Interleaves (front ++ (x :: part) :: back) (x :: whole)

namespace Interleaves

variable {parts : List (List α)} {whole : List α}

theorem perm (h : Interleaves parts whole) : whole.Perm parts.flatten := by
  induction h with
  | nil h => rw [List.flatten_eq_nil_iff.mpr h]
  | cons front x _ ih =>
    rw [List.flatten_append, List.flatten_cons] at ih ⊢
    exact (ih.cons x).trans List.perm_middle.symm

theorem nil_cons (h : Interleaves parts whole) : Interleaves ([] :: parts) whole := by
  induction h with
  | nil h => exact .nil (by simpa using h)
  | cons front x _ ih => exact .cons ([] :: front) x ih

/-- One part after the other is one of the ways. -/
theorem of_flatten (parts : List (List α)) : Interleaves parts parts.flatten := by
  induction parts with
  | nil => exact .nil (by simp)
  | cons part parts ih =>
    rw [List.flatten_cons]
    induction part with
    | nil => exact ih.nil_cons
    | cons x part ihpart => exact .cons [] x ihpart

theorem filter (p : α → Bool) (h : Interleaves parts whole) :
    Interleaves (parts.map (List.filter p)) (whole.filter p) := by
  induction h with
  | nil h =>
    refine .nil fun part hpart => ?_
    obtain ⟨part, hmem, rfl⟩ := List.mem_map.mp hpart
    rw [h part hmem, List.filter_nil]
  | cons front x _ ih =>
    rw [List.map_append, List.map_cons] at ih ⊢
    by_cases hx : p x = true
    · rw [List.filter_cons_of_pos hx, List.filter_cons_of_pos hx]
      exact .cons _ x ih
    · rw [List.filter_cons_of_neg hx, List.filter_cons_of_neg hx]
      exact ih

end Interleaves

/-! ## Who said what -/

section

variable {κ δ β : Type}

/-- The trace of what a function picks of all that was said. -/
def pick (f : α → Option β) (trace : List (κ × α)) : List (κ × β) :=
  trace.filterMap fun e => (f e.2).map fun x => (e.1, x)

theorem map_snd_pick (f : α → Option β) (trace : List (κ × α)) :
    (pick f trace).map Prod.snd = (trace.map Prod.snd).filterMap f := by
  simp [pick, List.map_filterMap, List.filterMap_map, Function.comp_def]

theorem mem_fst_of_mem_pick {f : α → Option β} {trace : List (κ × α)} {e : κ × β}
    (h : e ∈ pick f trace) : ∃ e' ∈ trace, e'.1 = e.1 := by
  obtain ⟨e', he', hsome⟩ := List.mem_filterMap.mp h
  obtain ⟨x, _, rfl⟩ := Option.map_eq_some_iff.mp hsome
  exact ⟨e', he', rfl⟩

variable [DecidableEq κ]

/-- What was said under a key, in order. -/
def said (trace : List (κ × α)) (key : κ) : List α := (trace.filter (·.1 = key)).map Prod.snd

theorem said_append (trace more : List (κ × α)) (key : κ) :
    said (trace ++ more) key = said trace key ++ said more key := by
  simp [said]

theorem said_map_self (key : κ) (xs : List α) : said (xs.map fun x => (key, x)) key = xs := by
  simp [said, List.filter_map, Function.comp_def]

theorem said_map_of_ne {key other : κ} (h : other ≠ key) (xs : List α) :
    said (xs.map fun x => (key, x)) other = [] := by
  simp [said, List.filter_map, Function.comp_def, Ne.symm h]

theorem said_eq_nil {trace : List (κ × α)} {key : κ} (h : key ∉ trace.map Prod.fst) :
    said trace key = [] := by
  rw [said, List.map_eq_nil_iff, List.filter_eq_nil_iff]
  intro e he
  have hne : e.1 ≠ key := fun heq => h (heq ▸ List.mem_map_of_mem he)
  simpa using hne

theorem said_pick (f : α → Option β) (trace : List (κ × α)) (key : κ) :
    said (pick f trace) key = (said trace key).filterMap f := by
  simp only [said, pick, List.filter_filterMap, List.map_filterMap, List.filterMap_map,
    List.filterMap_filter]
  refine List.filterMap_congr fun e _ => ?_
  by_cases hkey : e.1 = key
  · cases hf : f e.2 <;> simp [hkey, hf]
  · cases hf : f e.2 <;> simp [hkey]

/-- What is said under different keys interleaves. -/
theorem interleaves_said {ds : List δ} {key : δ → κ} (hkeys : (ds.map key).Nodup)
    {trace : List (κ × α)} (hmem : ∀ e ∈ trace, e.1 ∈ ds.map key) :
    Interleaves (ds.map fun d => said trace (key d)) (trace.map Prod.snd) := by
  induction trace with
  | nil => exact .nil (by simp [said])
  | cons e trace ih =>
    have hrest := ih fun e' he' => hmem e' (List.mem_cons_of_mem e he')
    obtain ⟨d, hd, hkey⟩ := List.mem_map.mp (hmem e List.mem_cons_self)
    obtain ⟨front, back, rfl⟩ := List.append_of_mem hd
    rw [List.map_append, List.map_cons, List.nodup_append, List.nodup_cons] at hkeys
    -- Only the part of this key has one more.
    have hother : ∀ d' ∈ front ++ back, said (e :: trace) (key d') = said trace (key d') := by
      intro d' hd'
      have hne : e.1 ≠ key d' := by
        rintro heq
        rcases List.mem_append.mp hd' with hd' | hd'
        · exact hkeys.2.2 _ (List.mem_map_of_mem hd') _ List.mem_cons_self (by rw [← heq, hkey])
        · exact hkeys.2.1.1 (hkey ▸ heq ▸ List.mem_map_of_mem hd')
      simp [said, hne]
    have hown : said (e :: trace) (key d) = e.2 :: said trace (key d) := by
      simp [said, hkey]
    rw [List.map_append, List.map_cons] at hrest ⊢
    rw [List.map_congr_left fun d' hd' => hother d' (List.mem_append_left back hd'), hown,
      List.map_congr_left fun d' hd' => hother d' (List.mem_append_right front hd'), List.map_cons]
    exact .cons _ e.2 hrest

end

end Purity
