-- The laws of ordered line tables. Where a table begins with zero and rises, the search finds the last
-- line that starts at or before an offset, and positions are in the order of their offsets. Sorted
-- diagnostics of a file are in that order too, as far as one more than a line or a column is a word.
import Mathlib.Order.Bounds.Basic
import Purity.Proofs.Positions
import Purity.Proofs.Precedence

namespace Purity

namespace SourceFile

/-! ## The search in an ordered table -/

/-- The lines that start at or before an offset. -/
def linesUpTo (starts : List UInt64) (offset : UInt64) : Set Nat :=
  {line | ∃ start ∈ starts[line]?, start ≤ offset}

section

variable {starts : List UInt64} {offset : UInt64}

theorem lt_of_rising (hrise : starts.Pairwise (· < ·)) {i j : Nat} {s t : UInt64}
    (hi : starts[i]? = some s) (hj : starts[j]? = some t) (hij : i < j) : s < t := by
  obtain ⟨hilt, rfl⟩ := List.getElem?_eq_some_iff.mp hi
  obtain ⟨hjlt, rfl⟩ := List.getElem?_eq_some_iff.mp hj
  exact List.pairwise_iff_getElem.mp hrise i j hilt hjlt hij

theorem le_of_rising (hrise : starts.Pairwise (· < ·)) {i j : Nat} {s t : UInt64}
    (hi : starts[i]? = some s) (hj : starts[j]? = some t) (hij : i ≤ j) : s ≤ t := by
  rcases Nat.lt_or_eq_of_le hij with hlt | rfl
  · exact UInt64.le_of_lt (lt_of_rising hrise hi hj hlt)
  · rw [hi] at hj
    cases hj
    exact UInt64.le_refl s

theorem le_toNat_of_rising (hrise : starts.Pairwise (· < ·)) {i : Nat} {s : UInt64}
    (hi : starts[i]? = some s) : i ≤ s.toNat := by
  induction i generalizing s with
  | zero => exact Nat.zero_le _
  | succ i ih =>
    have hlt : i < starts.length := Nat.lt_of_succ_lt (List.getElem?_eq_some_iff.mp hi).1
    have hprev := List.getElem?_eq_getElem hlt
    have hle := ih hprev
    have hstep := UInt64.lt_iff_toNat_lt.mp (lt_of_rising hrise hprev hi (Nat.lt_succ_self i))
    omega

-- The invariant: the stretch begins at or before the offset, and all behind it is beyond the offset.
theorem isGreatest_narrow (hrise : starts.Pairwise (· < ·)) {base size : Nat} (hsize : 0 < size)
    (hend : base + size ≤ starts.length) (hbase : base ∈ linesUpTo starts offset)
    (hbeyond : ∀ i ∈ linesUpTo starts offset, i < base + size) :
    IsGreatest (linesUpTo starts offset) (narrow starts offset base size) := by
  fun_induction narrow starts offset base size with
  | case1 base size hle =>
    refine ⟨hbase, ?_⟩
    intro i hi
    have := hbeyond i hi
    omega
  | case2 base size hgt half middle hlt ih =>
    have hmiddle : middle < starts.length := by omega
    rw [List.getElem?_eq_getElem hmiddle, Option.getD_some] at hlt
    refine ih (by omega) (by omega) hbase ?_
    rintro i ⟨s, hs, hle⟩
    by_contra hge
    have hmiddle_le := le_of_rising hrise (List.getElem?_eq_getElem hmiddle) hs (by omega)
    exact UInt64.not_le.mpr hlt (UInt64.le_trans hmiddle_le hle)
  | case3 base size hgt half middle hge ih =>
    have hmiddle : middle < starts.length := by omega
    rw [List.getElem?_eq_getElem hmiddle, Option.getD_some] at hge
    refine ih (by omega) (by omega) ?_ ?_
    · exact ⟨_, List.getElem?_eq_getElem hmiddle, UInt64.not_lt.mp hge⟩
    · intro i hi
      have := hbeyond i hi
      omega

end

/-- A line table as a text gives it: it begins with zero, and every line starts behind the one
before it. -/
structure Ordered (f : SourceFile) : Prop where
  first : f.lineStarts.head? = some 0
  rising : f.lineStarts.Pairwise (· < ·)

namespace Ordered

variable {f : SourceFile} (h : f.Ordered) (o : UInt64)

include h

theorem getElem?_zero : f.lineStarts[0]? = some 0 := by
  rw [← List.head?_eq_getElem?]
  exact h.first

theorem length_pos : 0 < f.lineStarts.length :=
  (List.getElem?_eq_some_iff.mp h.getElem?_zero).1

theorem line_isGreatest : IsGreatest (linesUpTo f.lineStarts o) (f.lineAndColumn o).1 := by
  have hlines : IsGreatest (linesUpTo f.lineStarts o)
      (narrow f.lineStarts o 0 f.lineStarts.length) := by
    refine isGreatest_narrow h.rising h.length_pos (by omega) ?_ ?_
    · exact ⟨0, h.getElem?_zero, UInt64.le_iff_toNat_le.mpr (Nat.zero_le _)⟩
    · rintro i ⟨s, hs, _⟩
      have := (List.getElem?_eq_some_iff.mp hs).1
      omega
  have hline : (f.lineAndColumn o).1 = narrow f.lineStarts o 0 f.lineStarts.length := by
    obtain ⟨start, hstart, hle⟩ := hlines.1
    rw [Option.mem_def] at hstart
    simp only [lineAndColumn, search, hstart]
    by_cases heq : start = o
    · simp [heq]
    · have hlt := Std.lt_of_le_of_ne hle heq
      simp [heq, hlt]
  rw [hline]
  exact hlines

theorem getElem?_line : f.lineStarts[(f.lineAndColumn o).1]? = some (f.lineStart o) := by
  obtain ⟨⟨start, hstart, _⟩, _⟩ := h.line_isGreatest o
  rw [Option.mem_def] at hstart
  rw [lineStart, hstart, Option.getD_some]

theorem lineStart_le : f.lineStart o ≤ o := by
  obtain ⟨⟨start, hstart, hle⟩, _⟩ := h.line_isGreatest o
  rw [Option.mem_def, h.getElem?_line] at hstart
  cases hstart
  exact hle

theorem lineStart_add_column :
    (f.lineStart o).toNat + (f.lineAndColumn o).2.toNat = o.toNat := by
  have hle := UInt64.le_iff_toNat_le.mp (h.lineStart_le o)
  rw [toNat_column]
  omega

/-- The line is the number of lines that start at or before the offset, less one. -/
theorem countP_le : f.lineStarts.countP (· ≤ o) = (f.lineAndColumn o).1 + 1 := by
  obtain ⟨⟨_, hstart, _⟩, hgreatest⟩ := h.line_isGreatest o
  have hlt := (List.getElem?_eq_some_iff.mp hstart).1
  have hfront : (f.lineStarts.take ((f.lineAndColumn o).1 + 1)).countP (· ≤ o) =
      (f.lineAndColumn o).1 + 1 := by
    rw [List.countP_eq_length.mpr, List.length_take, Nat.min_eq_left hlt]
    intro s hs
    obtain ⟨i, hi⟩ := List.mem_iff_getElem?.mp hs
    rw [List.getElem?_take] at hi
    split at hi
    · rename_i hle
      have := le_of_rising h.rising hi (h.getElem?_line o) (Nat.le_of_lt_succ hle)
      exact decide_eq_true (UInt64.le_trans this (h.lineStart_le o))
    · cases hi
  have hback : (f.lineStarts.drop ((f.lineAndColumn o).1 + 1)).countP (· ≤ o) = 0 := by
    rw [List.countP_eq_zero]
    intro s hs
    obtain ⟨i, hi⟩ := List.mem_iff_getElem?.mp hs
    rw [List.getElem?_drop] at hi
    simp only [decide_eq_true_eq]
    intro hle
    have := hgreatest ⟨s, hi, hle⟩
    omega
  rw [← List.take_append_drop ((f.lineAndColumn o).1 + 1) f.lineStarts, List.countP_append, hfront,
    hback]

/-! ## Positions in the order of offsets -/

theorem lex_of_lt {o₁ o₂ : UInt64} (hlt : o₁ < o₂) :
    Prod.Lex (· < ·) (· < ·) (f.lineAndColumn o₁) (f.lineAndColumn o₂) := by
  have hline : (f.lineAndColumn o₁).1 ≤ (f.lineAndColumn o₂).1 := by
    apply (h.line_isGreatest o₂).2
    exact ⟨_, h.getElem?_line o₁, UInt64.le_trans (h.lineStart_le o₁) (UInt64.le_of_lt hlt)⟩
  rw [Prod.lex_def]
  rcases Nat.lt_or_eq_of_le hline with hless | hsame
  · exact .inl hless
  -- On one line both columns count from one start.
  · right
    have hstart : f.lineStart o₁ = f.lineStart o₂ := by
      unfold lineStart
      rw [hsame]
    have h₁ := h.lineStart_add_column o₁
    have h₂ := h.lineStart_add_column o₂
    rw [hstart] at h₁
    refine ⟨hsame, UInt64.lt_iff_toNat_lt.mpr ?_⟩
    have := UInt64.lt_iff_toNat_lt.mp hlt
    omega

theorem lt_iff_lex (o₁ o₂ : UInt64) :
    o₁ < o₂ ↔ Prod.Lex (· < ·) (· < ·) (f.lineAndColumn o₁) (f.lineAndColumn o₂) := by
  refine ⟨h.lex_of_lt, ?_⟩
  intro hlex
  by_contra hnot
  rcases Std.le_iff_lt_or_eq.mp (UInt64.not_lt.mp hnot) with hlt | rfl
  · have hback := h.lex_of_lt hlt
    rw [Prod.lex_def] at hlex hback
    rcases hlex with hl | ⟨hl, hc⟩ <;> rcases hback with hl' | ⟨hl', hc'⟩
    · omega
    · omega
    · omega
    · exact UInt64.lt_asymm hc hc'
  · rw [Prod.lex_def] at hlex
    rcases hlex with hl | ⟨_, hc⟩
    · omega
    · exact UInt64.lt_irrefl _ hc

theorem lineAndColumn_injective : Function.Injective f.lineAndColumn := by
  intro o₁ o₂ hsame
  rw [← UInt64.toNat_inj, ← h.lineStart_add_column o₁, ← h.lineStart_add_column o₂]
  unfold lineStart
  rw [hsame]

theorem line_le_lineStart : (f.lineAndColumn o).1 ≤ (f.lineStart o).toNat :=
  le_toNat_of_rising h.rising (h.getElem?_line o)

end Ordered

end SourceFile

/-! ## Places in the order of offsets -/

/-- Both are in one file, and the first comes before the second by its line, or by its column on
the same line. -/
def Location.Precedes (a b : Location) : Prop :=
  a.file = b.file ∧ (a.line < b.line ∨ a.line = b.line ∧ a.column < b.column)

namespace SourceFile

/-- The line and the column of the place are one more than those of the offset. -/
def ExactAt (f : SourceFile) (offset : UInt64) : Prop :=
  (f.location offset).line.toNat = (f.lineAndColumn offset).1 + 1 ∧
    (f.location offset).column.toNat = (f.lineAndColumn offset).2.toNat + 1

namespace Ordered

variable {f : SourceFile} (h : f.Ordered) (o : UInt64)

include h

theorem exactAt_of_lt {o : UInt64} (hlt : o.toNat + 1 < UInt64.size) : f.ExactAt o := by
  constructor
  · apply toNat_location_line_of_lt
    have hline := h.line_le_lineStart o
    have hstart := UInt64.le_iff_toNat_le.mp (h.lineStart_le o)
    omega
  · rw [location_column_iff]
    rintro ⟨hlast, _⟩
    omega

theorem exactAt_of_length (hmore : 1 < f.lineStarts.length)
    (hlength : f.lineStarts.length < UInt64.size) : f.ExactAt o := by
  refine ⟨toNat_location_line hlength o, ?_⟩
  rw [location_column_iff]
  rintro ⟨hlast, hstart⟩
  -- The second line starts at or before the last offset, so that one is not on the first line.
  have hsecond : 1 ≤ (f.lineAndColumn o).1 := by
    apply (h.line_isGreatest o).2
    refine ⟨_, List.getElem?_eq_getElem hmore, UInt64.le_iff_toNat_le.mpr ?_⟩
    have := f.lineStarts[1].toNat_lt_size
    omega
  have hlt := lt_of_rising h.rising h.getElem?_zero (h.getElem?_line o) hsecond
  rw [hstart] at hlt
  exact UInt64.lt_irrefl _ hlt

theorem location_precedes {o₁ o₂ : UInt64} (hlt : o₁ < o₂) (h₁ : f.ExactAt o₁)
    (h₂ : f.ExactAt o₂) : (f.location o₁).Precedes (f.location o₂) := by
  refine ⟨rfl, ?_⟩
  rw [UInt64.lt_iff_toNat_lt, UInt64.lt_iff_toNat_lt, ← UInt64.toNat_inj, h₁.1, h₁.2, h₂.1, h₂.2]
  rcases Prod.lex_def.mp (h.lex_of_lt hlt) with hline | ⟨hline, hcolumn⟩
  · left
    omega
  · right
    have := UInt64.lt_iff_toNat_lt.mp hcolumn
    omega

theorem location_zero : f.location 0 = ⟨f.path, 1, 1⟩ := by
  have hexact := h.exactAt_of_lt (o := 0) (by decide)
  have hsum := h.lineStart_add_column 0
  have hline := h.line_le_lineStart 0
  rw [UInt64.toNat_zero] at hsum
  have hone : (f.location 0).line = 1 := by
    rw [← UInt64.toNat_inj, hexact.1, UInt64.toNat_one]
    omega
  have hone' : (f.location 0).column = 1 := by
    rw [← UInt64.toNat_inj, hexact.2, UInt64.toNat_one]
    omega
  exact Location.mk.injEq .. ▸ ⟨rfl, hone, hone'⟩

end Ordered

end SourceFile

/-! ## Sorted diagnostics -/

namespace Diagnostic

theorem before_of_precedes {a b : Diagnostic} (h : a.location.Precedes b.location) :
    a.sortKey.Before b.sortKey := by
  obtain ⟨hfile, hplace⟩ := h
  right
  refine ⟨congrArg Path.components hfile, ?_⟩
  rcases hplace with hline | ⟨hline, hcolumn⟩
  · exact .inl hline
  · exact .inr ⟨hline, .inl hcolumn⟩

theorem sort_of_before {a b : Diagnostic} (h : b.sortKey.Before a.sortKey) : sort [a, b] = [b, a] := by
  have hback : (a.compare b).isLE = false := by
    rw [← Bool.not_eq_true, isLE_iff, not_not]
    exact h
  have hon : (b.compare a).isLE = true := by
    simpa [hback] using isLE_total a b
  have hswap : sort [a, b] = sort [b, a] := by
    apply sort_eq_of_perm (.swap b a [])
    intro x hx y hy hkey
    simp only [List.mem_cons, List.not_mem_nil, or_false] at hx hy
    rcases hx with rfl | rfl <;> rcases hy with rfl | rfl
    · rfl
    · rw [compare_eq_eq_iff.mpr hkey] at hback
      cases hback
    · rw [compare_eq_eq_iff.mpr hkey.symm] at hback
      cases hback
    · rfl
  rw [hswap]
  exact List.mergeSort_of_pairwise (by simpa using hon)

end Diagnostic

namespace SourceFile

/-- Of two diagnostics of the file at offsets below the limit, the one that comes first is not at
the higher offset. -/
def InOrder (f : SourceFile) (limit : Nat) (ds : List Diagnostic) : Prop :=
  ds.Pairwise fun a b => ∀ o₁ o₂ : UInt64, o₁.toNat < limit → o₂.toNat < limit →
    a.location = f.location o₁ → b.location = f.location o₂ → o₁ ≤ o₂

variable {f : SourceFile}

theorem Ordered.inOrder_sort (h : f.Ordered) {limit : Nat}
    (hexact : ∀ o : UInt64, o.toNat < limit → f.ExactAt o) (ds : List Diagnostic) :
    f.InOrder limit (Diagnostic.sort ds) := by
  apply (Diagnostic.pairwise_sort ds).imp
  intro a b hle o₁ o₂ h₁ h₂ ha hb
  by_contra hnot
  have hprecedes := h.location_precedes (UInt64.not_le.mp hnot) (hexact o₂ h₂) (hexact o₁ h₁)
  rw [← ha, ← hb] at hprecedes
  exact Diagnostic.isLE_iff.mp hle (Diagnostic.before_of_precedes hprecedes)

/-- If a place comes before that of a lower offset, then there are diagnostics that show it. -/
theorem not_inOrder_sort {o₁ o₂ : UInt64} (hlt : o₁ < o₂)
    (h : (f.location o₂).Precedes (f.location o₁)) :
    ∃ ds, ¬ f.InOrder UInt64.size (Diagnostic.sort ds) := by
  have hbefore : (Diagnostic.mk .info "" (f.location o₂) "").sortKey.Before
      (Diagnostic.mk .info "" (f.location o₁) "").sortKey := Diagnostic.before_of_precedes h
  refine ⟨[⟨.info, "", f.location o₁, ""⟩, ⟨.info, "", f.location o₂, ""⟩], ?_⟩
  rw [Diagnostic.sort_of_before hbefore]
  intro horder
  have hpair := (List.pairwise_cons.mp horder).1 _ List.mem_cons_self
  have hle := hpair o₂ o₁ o₂.toNat_lt_size o₁.toNat_lt_size rfl rfl
  exact UInt64.not_le.mpr hlt hle

/-- The last offset there is. -/
def lastOffset : UInt64 := 18446744073709551615

theorem Ordered.precedes_of_single (h : f.Ordered) (hlength : f.lineStarts.length ≤ 1) :
    (f.location lastOffset).Precedes (f.location 0) := by
  have hline : (f.lineAndColumn lastOffset).1 = 0 := by
    have := f.line_lt lastOffset
    omega
  have hstart : f.lineStart lastOffset = 0 := by
    have := h.getElem?_line lastOffset
    rw [hline, h.getElem?_zero] at this
    exact (Option.some.inj this).symm
  have hone : (f.location lastOffset).line = 1 := by
    rw [← UInt64.toNat_inj, toNat_location_line_of_lt (by rw [hline]; decide), hline]
    rfl
  have hzero : (f.location lastOffset).column = 0 := (location_column_of_last ⟨rfl, hstart⟩).2
  rw [h.location_zero]
  refine ⟨rfl, .inr ⟨hone, ?_⟩⟩
  rw [hzero]
  change (0 : UInt64) < 1
  decide

-- Then every offset starts a line, and the number of the last line is no word.
theorem Ordered.precedes_of_full (h : f.Ordered) (hlength : UInt64.size ≤ f.lineStarts.length) :
    (f.location lastOffset).Precedes (f.location 0) := by
  have hlast : f.lineStarts.length - 1 ≤ (f.lineAndColumn lastOffset).1 := by
    have hlt : f.lineStarts.length - 1 < f.lineStarts.length := Nat.sub_one_lt_of_lt h.length_pos
    apply (h.line_isGreatest lastOffset).2
    refine ⟨_, List.getElem?_eq_getElem hlt, UInt64.le_iff_toNat_le.mpr ?_⟩
    exact Nat.le_of_lt_succ (f.lineStarts[f.lineStarts.length - 1].toNat_lt_size)
  have hline : (f.lineAndColumn lastOffset).1 = UInt64.size - 1 := by
    have hle := h.line_le_lineStart lastOffset
    have hword := (f.lineStart lastOffset).toNat_lt_size
    omega
  have hzero : (f.location lastOffset).line = 0 := by
    change UInt64.ofNat (f.lineAndColumn lastOffset).1 + 1 = 0
    rw [hline]
    decide
  rw [h.location_zero]
  refine ⟨rfl, .inl ?_⟩
  rw [hzero]
  change (0 : UInt64) < 1
  decide

/-! ## The law -/

/-- In a table that begins with zero and rises, the line of an offset is the last that starts at or
before it, and the column is what is left. Offsets are in the order of their positions, line before
column, so no two have the same. Sorting diagnostics of the file by place puts those at all offsets
but the last there is in the order of the offsets. The last offset takes part just when the table has a
second line (else the word for its column is zero, and it comes first) and the number of lines is a
word, as that of every table in memory. -/
theorem positions_are_in_the_order_of_offsets (f : SourceFile)
    (hzero : f.lineStarts.head? = some 0) (hrise : f.lineStarts.Pairwise (· < ·)) :
    (∀ o, let (line, column) := f.lineAndColumn o
      IsGreatest {l | ∃ start ∈ f.lineStarts[l]?, start ≤ o} line ∧
        ∃ start ∈ f.lineStarts[line]?, start.toNat + column.toNat = o.toNat) ∧
      (∀ o₁ o₂, o₁ < o₂ ↔
        Prod.Lex (· < ·) (· < ·) (f.lineAndColumn o₁) (f.lineAndColumn o₂)) ∧
      Function.Injective f.lineAndColumn ∧
      (∀ ds, f.InOrder (UInt64.size - 1) (Diagnostic.sort ds)) ∧
      ((∀ ds, f.InOrder UInt64.size (Diagnostic.sort ds)) ↔
        1 < f.lineStarts.length ∧ f.lineStarts.length < UInt64.size) := by
  have h : f.Ordered := ⟨hzero, hrise⟩
  refine ⟨?_, h.lt_iff_lex, h.lineAndColumn_injective, ?_, ?_⟩
  · intro o
    exact ⟨h.line_isGreatest o, _, h.getElem?_line o, h.lineStart_add_column o⟩
  · apply h.inOrder_sort
    intro o ho
    exact h.exactAt_of_lt (by omega)
  · constructor
    · intro horder
      by_contra hlength
      have hprecedes : (f.location lastOffset).Precedes (f.location 0) := by
        rw [not_and_or, Nat.not_lt, Nat.not_lt] at hlength
        rcases hlength with hsingle | hfull
        · exact h.precedes_of_single hsingle
        · exact h.precedes_of_full hfull
      obtain ⟨ds, hds⟩ := not_inOrder_sort (by decide) hprecedes
      exact hds (horder ds)
    · rintro ⟨hmore, hlength⟩
      apply h.inOrder_sort
      intro o _
      exact h.exactAt_of_length o hmore hlength

theorem three_lines_are_in_the_order_of_offsets :
    let f : SourceFile := ⟨"a.kt", [0, 3, 4], []⟩
    f.lineStarts.head? = some 0 ∧ f.lineStarts.Pairwise (· < ·) ∧
      [2, 3, 4, 9].map f.lineAndColumn = [(0, 2), (1, 0), (2, 0), (2, 5)] ∧
      Function.Injective f.lineAndColumn ∧ ∀ ds, f.InOrder UInt64.size (Diagnostic.sort ds) := by
  intro f
  have hrise : f.lineStarts.Pairwise (· < ·) := by decide
  have hlaw := positions_are_in_the_order_of_offsets f rfl hrise
  exact ⟨rfl, hrise, by decide +kernel, hlaw.2.2.1, hlaw.2.2.2.2.mpr (by decide)⟩

/-- A file of one line, with one function at its start and one at the last offset. -/
def ofEnds : SourceFile :=
  ⟨"a.kt", [0], [⟨"m.f", .ofName "f", [], some (.const 0 .null), 0⟩,
    ⟨"m.g", .ofName "g", [], some (.const 0 .null), lastOffset⟩]⟩

/-- The suggestion for the function at the last offset is sorted before that for the function at the
start. -/
theorem the_last_offset_of_one_line_is_sorted_first :
    ofEnds.lineStarts.head? = some 0 ∧ ofEnds.lineStarts.Pairwise (· < ·) ∧
      ((Checker.ofConfig {}).run ⟨"m", [ofEnds]⟩).diagnostics.map (·.location) =
        [ofEnds.location 0, ofEnds.location lastOffset] ∧
      ((Checker.ofConfig {}).output ⟨"m", [ofEnds]⟩).diagnostics.map (·.location) =
        [ofEnds.location lastOffset, ofEnds.location 0] ∧
      ¬ ofEnds.InOrder UInt64.size ((Checker.ofConfig {}).output ⟨"m", [ofEnds]⟩).diagnostics := by
  have h : ofEnds.Ordered := ⟨rfl, by decide⟩
  have hrun : ((Checker.ofConfig {}).run ⟨"m", [ofEnds]⟩).diagnostics =
      [⟨.info, suggestionText "f" .pure, ofEnds.location 0, "m.f"⟩,
        ⟨.info, suggestionText "g" .pure, ofEnds.location lastOffset, "m.g"⟩] := by
    decide +kernel
  have hsorted : ((Checker.ofConfig {}).output ⟨"m", [ofEnds]⟩).diagnostics =
      [⟨.info, suggestionText "g" .pure, ofEnds.location lastOffset, "m.g"⟩,
        ⟨.info, suggestionText "f" .pure, ofEnds.location 0, "m.f"⟩] := by
    change Diagnostic.sort ((Checker.ofConfig {}).run ⟨"m", [ofEnds]⟩).diagnostics = _
    rw [hrun]
    apply Diagnostic.sort_of_before
    exact Diagnostic.before_of_precedes (h.precedes_of_single (Nat.le_refl 1))
  rw [hrun, hsorted]
  refine ⟨rfl, h.rising, rfl, rfl, ?_⟩
  intro horder
  have hpair := (List.pairwise_cons.mp horder).1 _ List.mem_cons_self
  exact absurd (hpair lastOffset 0 (by decide) (by decide) rfl rfl) (by decide)

end SourceFile

end Purity
