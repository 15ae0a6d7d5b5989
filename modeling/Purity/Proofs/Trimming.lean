-- The laws of trimmed names. Names are trimmed where a list is split at its commas, where settings are
-- read, and once more where a table is made. A name that is trimmed stays as it is, so it does not
-- matter how often this happens, nor that the command line gives the names as one text.
import Mathlib.Data.List.DropRight
import Purity.Config

namespace Purity

namespace Text

/-! ## Trimming told without cutting -/

/-- The second text is the first without the blanks at its ends: only blanks are missing, and those
at the ends are. -/
structure Trims (s t : String) : Prop where
  around : ∃ front back, s.toList = front ++ t.toList ++ back ∧
    (∀ c ∈ front, isBlank c = true) ∧ ∀ c ∈ back, isBlank c = true
  head : ∀ c ∈ t.toList.head?, isBlank c = false
  last : ∀ c ∈ t.toList.getLast?, isBlank c = false

theorem dropWhile_of_head {cs : List Char} (h : ∀ c ∈ cs.head?, isBlank c = false) :
    cs.dropWhile isBlank = cs := by
  cases cs with
  | nil => rfl
  | cons c cs => exact List.dropWhile_cons_of_neg (by simp [h c rfl])

theorem head_dropWhile (cs : List Char) {c : Char} (hc : c ∈ (cs.dropWhile isBlank).head?) :
    isBlank c = false := by
  have hhead := List.head?_dropWhile_not isBlank cs
  rw [Option.mem_def.mp hc] at hhead
  exact hhead

theorem trims_trim (s : String) : Trims s (trim s) := by
  have htrim : (trim s).toList = (s.toList.dropWhile isBlank).rdropWhile isBlank :=
    String.toList_ofList
  refine ⟨⟨s.toList.takeWhile isBlank, (s.toList.dropWhile isBlank).rtakeWhile isBlank, ?_, ?_, ?_⟩,
    ?_, ?_⟩
  · rw [htrim, List.append_assoc, List.rdropWhile, List.rtakeWhile, ← List.reverse_append,
      List.takeWhile_append_dropWhile, List.reverse_reverse, List.takeWhile_append_dropWhile]
  · exact fun c hc => List.mem_takeWhile_imp hc
  · exact fun c hc => List.mem_rtakeWhile_imp hc
  · intro c hc
    obtain ⟨back, hback⟩ := List.rdropWhile_prefix isBlank (s.toList.dropWhile isBlank)
    rw [htrim] at hc
    apply head_dropWhile s.toList
    rw [← hback, Option.mem_def, List.head?_append, Option.mem_def.mp hc]
    rfl
  · intro c hc
    rw [htrim, List.rdropWhile, List.getLast?_reverse] at hc
    exact head_dropWhile _ hc

theorem Trims.eq_trim {s t : String} (h : Trims s t) : t = trim s := by
  obtain ⟨⟨front, back, hs, hfront, hback⟩, hhead, hlast⟩ := h
  have htrim : trimChars s.toList = t.toList := by
    rw [hs]
    cases ht : t.toList with
    | nil =>
      have hnil : (front ++ [] ++ back).dropWhile isBlank = [] := by
        rw [List.append_nil, List.dropWhile_append_of_pos hfront, List.dropWhile_eq_nil_iff]
        exact hback
      rw [trimChars, hnil]
      rfl
    | cons c cs =>
      rw [ht] at hhead hlast
      have hleft : (front ++ c :: cs ++ back).dropWhile isBlank = c :: cs ++ back := by
        rw [List.append_assoc, List.dropWhile_append_of_pos hfront]
        exact dropWhile_of_head hhead
      have hright : (c :: cs ++ back).reverse.dropWhile isBlank = (c :: cs).reverse := by
        rw [List.reverse_append, List.dropWhile_append_of_pos (by simpa using hback)]
        apply dropWhile_of_head
        rw [List.head?_reverse]
        exact hlast
      rw [trimChars, hleft, hright, List.reverse_reverse]
  rw [trim, htrim, String.ofList_toList]

theorem trims_iff {s t : String} : Trims s t ↔ t = trim s := by
  constructor
  · exact Trims.eq_trim
  · rintro rfl
    exact trims_trim s

theorem trim_trim (s : String) : trim (trim s) = trim s := by
  have h := trims_trim s
  have hself : Trims (trim s) (trim s) := ⟨⟨[], [], by simp, by simp, by simp⟩, h.head, h.last⟩
  exact hself.eq_trim.symm

theorem mem_trimAll {texts : List String} {name : String} :
    name ∈ trimAll texts ↔ name ≠ "" ∧ ∃ text ∈ texts, Trims text name := by
  rw [trimAll, List.mem_filter, List.mem_map, decide_eq_true_eq, and_comm]
  simp only [trims_iff, eq_comm]

theorem trimAll_trimAll (texts : List String) : trimAll (trimAll texts) = trimAll texts := by
  have hmap : (trimAll texts).map trim = trimAll texts := by
    have hself : ∀ name ∈ trimAll texts, trim name = id name := by
      intro name hname
      obtain ⟨_, text, _, htrims⟩ := mem_trimAll.mp hname
      rw [htrims.eq_trim, trim_trim]
      rfl
    rw [List.map_congr_left hself, List.map_id]
  conv_lhs => rw [trimAll, hmap]
  rw [List.filter_eq_self]
  intro name hname
  exact decide_eq_true (mem_trimAll.mp hname).1

end Text

/-! ## One list, however it is given -/

/-- Splitting a list at its commas undoes putting them in, but for what trimming takes away. An empty
list gives an empty name, which is dropped. -/
theorem splitNames_intercalate {names : List String} (h : ∀ name ∈ names, ',' ∉ name.toList) :
    splitNames (",".intercalate names) = Text.trimAll names := by
  unfold splitNames
  cases names with
  | nil => rfl
  | cons name names =>
    have hsplit : ([','].intercalate ((name :: names).map String.toList)).splitOn ',' =
        (name :: names).map String.toList := by
      apply List.splitOn_intercalate
      · simpa using h
      · simp
    have hcomma : ",".toList = [','] := rfl
    rw [String.toList_intercalate, hcomma, hsplit, List.map_map]
    simp [Function.comp_def, String.ofList_toList]

namespace Config

theorem normalize_normalize (c : Config) : c.normalize.normalize = c.normalize := by
  unfold normalize
  simp only [Text.trimAll_trimAll]

/-- A table trims the names that it is made of, so it is the same for names that are trimmed. -/
theorem table_of_trimAll {c c' : Config} (h : c'.names = Text.trimAll c.names) : c'.table = c.table := by
  unfold table Table.ofNames
  rw [h, Text.trimAll_trimAll]

end Config

end Purity
