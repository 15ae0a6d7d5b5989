-- The lines of a text in bytes. The line table that is made from a text has the places behind its
-- newlines, and a newline is one byte that is part of no other character. So the line of an offset
-- counts the newlines before it, also where the offset is inside a character or behind the text.
import Purity.Proofs.LineTable

namespace Purity.SourceFile

/-! ## The newlines of a text -/

/-- The characters as UTF-8. -/
def bytesOf (cs : List Char) : List UInt8 := cs.flatMap String.utf8EncodeChar

theorem bytes_eq (text : String) : text.toUTF8.data.toList = bytesOf text.toList := by
  have hencode : text.toByteArray = text.toList.utf8Encode := by
    rw [← String.toByteArray_ofList, String.ofList_toList]
  rw [String.toUTF8_eq_toByteArray, hencode, List.utf8Encode, List.toList_data_toByteArray, bytesOf]

theorem length_bytes (text : String) : text.toUTF8.data.toList.length = text.utf8ByteSize :=
  String.size_toByteArray

theorem ne_or_of_high {b x mark : UInt8} (hb : b.toBitVec.getLsbD 7 = false)
    (h : mark.toBitVec.getLsbD 7 = true) : b ≠ x ||| mark := by
  rintro rfl
  rw [UInt8.toBitVec_or, BitVec.getLsbD_or, h, Bool.or_true] at hb
  cases hb

/-- All bytes of a longer character have their highest bit set. -/
theorem newline_mem_encode {c : Char} : 10 ∈ String.utf8EncodeChar c ↔ c = '\n' := by
  have hhigh {x mark : UInt8} (h : mark.toBitVec.getLsbD 7 = true) : 10 ≠ x ||| mark :=
    ne_or_of_high rfl h
  constructor
  · intro h
    rcases Char.utf8Size_eq c with hsize | hsize | hsize | hsize
    · rw [String.utf8EncodeChar_eq_singleton hsize, List.mem_singleton] at h
      have hle : c.val.toNat ≤ 127 := UInt32.le_iff_toNat_le.mp (Char.utf8Size_eq_one_iff.mp hsize)
      have hval : 10 = c.val.toNat % 256 := by
        rw [← UInt32.toNat_toUInt8, ← h]
        rfl
      apply Char.ext
      rw [← UInt32.toNat_inj]
      change c.val.toNat = 10
      omega
    · rw [String.utf8EncodeChar_eq_cons_cons hsize] at h
      simp [hhigh] at h
    · rw [String.utf8EncodeChar_eq_cons_cons_cons hsize] at h
      simp [hhigh] at h
    · rw [String.utf8EncodeChar_eq_cons_cons_cons_cons hsize] at h
      simp [hhigh] at h
  · rintro rfl
    decide

/-! ## The line table of a text -/

theorem bytesOf_cons (c : Char) (cs : List Char) :
    bytesOf (c :: cs) = String.utf8EncodeChar c ++ bytesOf cs := List.flatMap_cons

theorem length_bytesOf_cons (c : Char) (cs : List Char) :
    (bytesOf (c :: cs)).length = c.utf8Size + (bytesOf cs).length := by
  rw [bytesOf_cons, List.length_append, String.length_utf8EncodeChar]

theorem newlines_cons (pos : Nat) (c : Char) (cs : List Char) : newlines pos (c :: cs) =
    (if c = '\n' then [UInt64.ofNat (pos + 1)] else []) ++ newlines (pos + c.utf8Size) cs := by
  rw [newlines]
  split
  · rename_i hc
    subst hc
    rfl
  · rfl

theorem toNat_behind_newline {pos : Nat} {cs : List Char}
    (h : pos + (bytesOf ('\n' :: cs)).length < UInt64.size) :
    (UInt64.ofNat (pos + 1)).toNat = pos + 1 := by
  have hone : '\n'.utf8Size = 1 := rfl
  rw [length_bytesOf_cons] at h
  exact UInt64.toNat_ofNat_of_lt (by omega)

theorem rest_fits {pos : Nat} {c : Char} {cs : List Char}
    (h : pos + (bytesOf (c :: cs)).length < UInt64.size) :
    pos + c.utf8Size + (bytesOf cs).length < UInt64.size := by
  rw [length_bytesOf_cons] at h
  omega

/-- The table has the places behind the newlines, and nothing else. -/
theorem mem_newlines {pos : Nat} {cs : List Char} (hsize : pos + (bytesOf cs).length < UInt64.size)
    {s : UInt64} :
    s ∈ newlines pos cs ↔ ∃ i, (bytesOf cs)[i]? = some 10 ∧ s.toNat = pos + i + 1 := by
  induction cs generalizing pos with
  | nil => simp [newlines, bytesOf]
  | cons c cs ih =>
    have hlength := String.length_utf8EncodeChar c
    rw [newlines_cons, List.mem_append, ih (rest_fits hsize), bytesOf_cons]
    constructor
    · rintro (hs | ⟨i, hi, hs⟩)
      · split at hs
        · rename_i hc
          subst hc
          rw [List.mem_singleton] at hs
          exact ⟨0, rfl, by rw [hs, toNat_behind_newline hsize]⟩
        · cases hs
      · refine ⟨c.utf8Size + i, ?_, by omega⟩
        rw [List.getElem?_append_right (by omega), hlength, Nat.add_sub_cancel_left]
        exact hi
    · rintro ⟨i, hi, hs⟩
      by_cases hlt : i < c.utf8Size
      -- A newline in the first character is that character.
      · left
        rw [List.getElem?_append_left (by omega)] at hi
        have hc := newline_mem_encode.mp (List.mem_of_getElem? hi)
        subst hc
        have hzero : i = 0 := Nat.lt_one_iff.mp hlt
        rw [if_pos rfl, List.mem_singleton, ← UInt64.toNat_inj, toNat_behind_newline hsize, hs, hzero]
      · right
        rw [List.getElem?_append_right (by omega), hlength] at hi
        exact ⟨i - c.utf8Size, hi, by omega⟩

theorem pairwise_newlines {pos : Nat} {cs : List Char}
    (hsize : pos + (bytesOf cs).length < UInt64.size) : (newlines pos cs).Pairwise (· < ·) := by
  induction cs generalizing pos with
  | nil => exact .nil
  | cons c cs ih =>
    rw [newlines_cons]
    split
    · rename_i hc
      subst hc
      refine List.pairwise_cons.mpr ⟨?_, ih (rest_fits hsize)⟩
      intro s hs
      obtain ⟨i, _, hs⟩ := (mem_newlines (rest_fits hsize)).mp hs
      have hone : '\n'.utf8Size = 1 := rfl
      rw [UInt64.lt_iff_toNat_lt, toNat_behind_newline hsize, hs]
      omega
    · exact ih (rest_fits hsize)

theorem countP_newlines {pos : Nat} {cs : List Char}
    (hsize : pos + (bytesOf cs).length < UInt64.size) (o : UInt64) :
    (newlines pos cs).countP (· ≤ o) = ((bytesOf cs).take (o.toNat - pos)).count 10 := by
  induction cs generalizing pos with
  | nil => simp [newlines, bytesOf]
  | cons c cs ih =>
    have hfirst : (if c = '\n' then [UInt64.ofNat (pos + 1)] else []).countP (· ≤ o) =
        ((String.utf8EncodeChar c).take (o.toNat - pos)).count 10 := by
      split
      · rename_i hc
        subst hc
        have hencode : String.utf8EncodeChar '\n' = [10] := rfl
        have hword : UInt64.ofNat (pos + 1) ≤ o ↔ pos + 1 ≤ o.toNat := by
          rw [UInt64.le_iff_toNat_le, toNat_behind_newline hsize]
        simp only [hencode, List.countP_singleton, decide_eq_true_eq, hword]
        by_cases hle : pos + 1 ≤ o.toNat
        · rw [if_pos hle, List.take_of_length_le (Nat.le_sub_of_add_le' hle)]
          rfl
        · rw [if_neg hle, Nat.sub_eq_zero_of_le (by omega), List.take_zero]
          rfl
      · rename_i hc
        rw [List.countP_nil, eq_comm, List.count_eq_zero]
        intro hmem
        exact hc (newline_mem_encode.mp (List.mem_of_mem_take hmem))
    rw [newlines_cons, List.countP_append, hfirst, ih (rest_fits hsize), bytesOf_cons,
      List.take_append, List.count_append, String.length_utf8EncodeChar, Nat.sub_add_eq]

theorem fits_bytesOf {text : String} (h : text.utf8ByteSize < UInt64.size) :
    0 + (bytesOf text.toList).length < UInt64.size := by
  rw [Nat.zero_add, ← bytes_eq, length_bytes]
  exact h

theorem ordered_withText (f : SourceFile) {text : String} (h : text.utf8ByteSize < UInt64.size) :
    (f.withText text).Ordered := by
  refine ⟨rfl, List.pairwise_cons.mpr ⟨?_, pairwise_newlines (fits_bytesOf h)⟩⟩
  intro s hs
  obtain ⟨i, _, hs⟩ := (mem_newlines (fits_bytesOf h)).mp hs
  rw [UInt64.lt_iff_toNat_lt, hs]
  exact Nat.succ_pos _

theorem line_withText (f : SourceFile) {text : String} (h : text.utf8ByteSize < UInt64.size)
    (o : UInt64) :
    ((f.withText text).lineAndColumn o).1 = ((bytesOf text.toList).take o.toNat).count 10 := by
  have hzero : (0 : UInt64) ≤ o := UInt64.le_iff_toNat_le.mpr (Nat.zero_le _)
  have hline := (ordered_withText f h).countP_le o
  change (0 :: newlines 0 text.toList).countP (· ≤ o) = _ at hline
  rw [List.countP_cons, countP_newlines (fits_bytesOf h), if_pos (decide_eq_true hzero)] at hline
  exact (Nat.succ.inj hline).symm

/-- The start of a line other than the first is behind the last newline before the offset. -/
theorem isGreatest_newline (f : SourceFile) {text : String} (h : text.utf8ByteSize < UInt64.size)
    {o : UInt64} (hline : ((f.withText text).lineAndColumn o).1 ≠ 0) :
    ∃ i, IsGreatest {i | i < o.toNat ∧ (bytesOf text.toList)[i]? = some 10} i ∧
      ((f.withText text).lineStart o).toNat = i + 1 := by
  have hordered := ordered_withText f h
  have hmem : ∀ s, s ∈ newlines 0 text.toList ↔ _ := fun s => mem_newlines (fits_bytesOf h)
  obtain ⟨k, hk⟩ := Nat.exists_eq_succ_of_ne_zero hline
  have hstart := hordered.getElem?_line o
  have hle := UInt64.le_iff_toNat_le.mp (hordered.lineStart_le o)
  rw [hk] at hstart
  obtain ⟨i, hi, hstart_eq⟩ := (hmem _).mp (List.mem_of_getElem? hstart)
  refine ⟨i, ⟨⟨by omega, hi⟩, ?_⟩, by omega⟩
  rintro j ⟨hj, hnewline⟩
  -- The place behind another newline is a line start too, and no later one than that of the offset.
  have hword : (UInt64.ofNat (j + 1)).toNat = j + 1 := by
    apply UInt64.toNat_ofNat_of_lt
    have := o.toNat_lt_size
    omega
  obtain ⟨m, hm⟩ := List.mem_iff_getElem?.mp ((hmem _).mpr ⟨j, hnewline, by rw [hword]; omega⟩)
  have hupTo : m + 1 ∈ linesUpTo (f.withText text).lineStarts o := by
    refine ⟨_, hm, UInt64.le_iff_toNat_le.mpr ?_⟩
    rw [hword]
    omega
  have hlast := (hordered.line_isGreatest o).2 hupTo
  rw [hk] at hlast
  have hrise := UInt64.le_iff_toNat_le.mp (le_of_rising hordered.rising hm hstart hlast)
  rw [hword] at hrise
  omega

/-! ## The law -/

/-- The table of a text gives every offset the line that is the number of newline bytes before it, as
far as the text goes, and the column that is left of the offset behind the last of these, or the
whole offset if there is none. The size of the text is a word, as that of every text in memory. -/
theorem lines_and_columns_are_counted_in_bytes (path text : String) (o : UInt64)
    (hsize : text.utf8ByteSize < UInt64.size) :
    let bytes := text.toUTF8.data.toList
    let front := bytes.take (min o.toNat bytes.length)
    let (line, column) := ((ofPath path).withText text).lineAndColumn o
    line = front.count 10 ∧
      (10 ∉ front ∧ column = o ∨
        ∃ i, IsGreatest {i | front[i]? = some 10} i ∧ i + 1 + column.toNat = o.toNat) := by
  intro bytes front
  have hfront : front = (bytesOf text.toList).take o.toNat := by
    change bytes.take (min o.toNat bytes.length) = _
    rw [← List.take_take, List.take_length, ← bytes_eq]
  have hline := line_withText (ofPath path) hsize o
  have hcolumn := (ordered_withText (ofPath path) hsize).lineStart_add_column o
  rw [← hfront] at hline
  refine ⟨hline, ?_⟩
  by_cases hzero : (((ofPath path).withText text).lineAndColumn o).1 = 0
  · left
    have hstart := (ordered_withText (ofPath path) hsize).getElem?_line o
    rw [hzero, (ordered_withText (ofPath path) hsize).getElem?_zero] at hstart
    rw [← Option.some.inj hstart, UInt64.toNat_zero, Nat.zero_add, UInt64.toNat_inj] at hcolumn
    exact ⟨List.count_eq_zero.mp (hline.symm.trans hzero), hcolumn⟩
  · right
    obtain ⟨i, hgreatest, hstart⟩ := isGreatest_newline (ofPath path) hsize hzero
    have hset : {i | front[i]? = some 10} =
        {i | i < o.toNat ∧ (bytesOf text.toList)[i]? = some 10} := by
      ext i
      simp [hfront, List.getElem?_take]
    rw [hstart] at hcolumn
    exact ⟨i, hset ▸ hgreatest, hcolumn⟩

-- Offsets 2, 3 and 4 are in the third line: before and inside a character of two bytes, and at its end.
theorem a_short_text_is_counted_in_bytes :
    let text := "\n\né\n"
    text.utf8ByteSize < UInt64.size ∧
      [0, 1, 2, 3, 4, 5, 9].map ((ofPath "a.kt").withText text).lineAndColumn =
        [(0, 0), (1, 0), (2, 0), (2, 1), (2, 2), (3, 0), (3, 4)] ∧
      (((ofPath "a.kt").withText text).lineAndColumn 3).1 =
        (text.toUTF8.data.toList.take (min 3 text.toUTF8.data.toList.length)).count 10 := by
  intro text
  have hsize : text.utf8ByteSize < UInt64.size := by decide
  exact ⟨hsize, by decide +kernel, (lines_and_columns_are_counted_in_bytes "a.kt" text 3 hsize).1⟩

end Purity.SourceFile
