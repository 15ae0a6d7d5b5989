-- The laws of positions. Offsets and line tables are whatever 64 bit words the text of a module
-- brings, in order or not. The line of a diagnostic is exact all the same. So is the column, except
-- for the last offset there is in a line that starts at zero: one more than its column is no word.
import Purity.Proofs.Account
import Purity.Proofs.Extent
import Purity.Proofs.ModuleText

namespace Purity

namespace SourceFile

/-! ## The search -/

/-- Narrowing down stays in the stretch, whatever the entries are. -/
theorem narrow_lt (starts : List UInt64) (offset : UInt64) (base : Nat) {size : Nat}
    (h : 0 < size) : narrow starts offset base size < base + size := by
  fun_induction narrow starts offset base size with
  | case1 base size hle => omega
  | case2 base size hgt half middle hbeyond ih =>
    have := ih (by omega)
    omega
  | case3 base size hgt half middle hbeyond ih =>
    have := ih (by omega)
    omega

/-- The search ends at an entry, and says how the offset stands to it. -/
theorem search_cases {starts : List UInt64} (h : starts ≠ []) (offset : UInt64) :
    ∃ place < starts.length, ∃ start, starts[place]? = some start ∧
      (start = offset ∧ search starts offset = .ok place ∨
        start < offset ∧ search starts offset = .error (place + 1) ∨
        offset < start ∧ search starts offset = .error place) := by
  have hlength : 0 < starts.length := List.length_pos_iff.mpr h
  have hlt := narrow_lt starts offset 0 hlength
  rw [Nat.zero_add] at hlt
  refine ⟨_, hlt, _, List.getElem?_eq_getElem hlt, ?_⟩
  simp only [search, List.getElem?_eq_getElem hlt]
  by_cases heq : starts[narrow starts offset 0 starts.length] = offset
  · exact .inl ⟨heq, if_pos heq⟩
  · by_cases hs : starts[narrow starts offset 0 starts.length] < offset
    · exact .inr (.inl ⟨hs, by simp [heq, hs]⟩)
    · have hs' := Std.lt_of_le_of_ne (Std.not_lt.mp hs) (Ne.symm heq)
      exact .inr (.inr ⟨hs', by simp [heq, hs]⟩)

theorem line_lt (f : SourceFile) (offset : UInt64) :
    (f.lineAndColumn offset).1 < max 1 f.lineStarts.length := by
  unfold lineAndColumn
  by_cases h : f.lineStarts = []
  · simp [h, search]
  · obtain ⟨place, hlt, _, _, ⟨_, hs⟩ | ⟨_, hs⟩ | ⟨_, hs⟩⟩ := search_cases h offset
    · simp [hs, hlt]
    · simp [hs, hlt]
    · simp only [hs]
      exact Nat.lt_of_le_of_lt (Nat.sub_le place 1)
        (Nat.lt_of_lt_of_le hlt (Nat.le_max_right _ _))

/-! ## Lines and columns as numbers -/

/-- Where the line of an offset starts. -/
def lineStart (f : SourceFile) (offset : UInt64) : UInt64 :=
  f.lineStarts[(f.lineAndColumn offset).1]?.getD 0

/-- A column is what is left of the offset behind the start of its line, if anything is. -/
theorem toNat_column (f : SourceFile) (offset : UInt64) :
    (f.lineAndColumn offset).2.toNat = offset.toNat - (f.lineStart offset).toNat := by
  change (if f.lineStart offset ≤ offset then offset - f.lineStart offset else 0).toNat = _
  split
  · rename_i hle
    exact UInt64.toNat_sub_of_le _ _ hle
  · rename_i hgt
    have : offset.toNat < (f.lineStart offset).toNat := UInt64.not_le.mp hgt
    simp only [UInt64.toNat_zero]
    omega

/-- One column alone is so far out that no word is left for the next one. -/
theorem column_eq_last_iff (f : SourceFile) (offset : UInt64) :
    (f.lineAndColumn offset).2.toNat + 1 = UInt64.size ↔
      offset.toNat + 1 = UInt64.size ∧ f.lineStart offset = 0 := by
  have hoffset := offset.toNat_lt_size
  rw [toNat_column, ← UInt64.toNat_inj, UInt64.toNat_zero]
  unfold UInt64.size at *
  omega

theorem toNat_location_line_of_lt {f : SourceFile} {offset : UInt64}
    (h : (f.lineAndColumn offset).1 + 1 < UInt64.size) :
    (f.location offset).line.toNat = (f.lineAndColumn offset).1 + 1 := by
  have hword : (UInt64.ofNat (f.lineAndColumn offset).1).toNat = (f.lineAndColumn offset).1 :=
    UInt64.toNat_ofNat_of_lt (Nat.lt_of_succ_lt h)
  change (UInt64.ofNat (f.lineAndColumn offset).1 + 1).toNat = _
  rw [UInt64.toNat_add, hword]
  exact Nat.mod_eq_of_lt h

theorem toNat_location_line {f : SourceFile} (h : f.lineStarts.length < UInt64.size)
    (offset : UInt64) :
    (f.location offset).line.toNat = (f.lineAndColumn offset).1 + 1 := by
  apply toNat_location_line_of_lt
  have := f.line_lt offset
  unfold UInt64.size at *
  omega

theorem toNat_location_column (f : SourceFile) (offset : UInt64) :
    (f.location offset).column.toNat =
      ((f.lineAndColumn offset).2.toNat + 1) % UInt64.size := by
  change ((f.lineAndColumn offset).2 + 1).toNat = _
  rw [UInt64.toNat_add]
  rfl

theorem location_column_iff (f : SourceFile) (offset : UInt64) :
    (f.location offset).column.toNat = (f.lineAndColumn offset).2.toNat + 1 ↔
      ¬ (offset.toNat + 1 = UInt64.size ∧ f.lineStart offset = 0) := by
  have hcolumn := (f.lineAndColumn offset).2.toNat_lt_size
  rw [toNat_location_column, ← column_eq_last_iff]
  constructor
  · intro h hlast
    rw [hlast, Nat.mod_self] at h
    omega
  · intro h
    exact Nat.mod_eq_of_lt (by omega)

/-- The column of the last offset is the offset itself, and the word after it is zero. -/
theorem location_column_of_last {f : SourceFile} {offset : UInt64}
    (h : offset.toNat + 1 = UInt64.size ∧ f.lineStart offset = 0) :
    (f.lineAndColumn offset).2 = offset ∧ (f.location offset).column = 0 := by
  constructor
  · rw [← UInt64.toNat_inj, toNat_column, h.2, UInt64.toNat_zero, Nat.sub_zero]
  · rw [← UInt64.toNat_inj, toNat_location_column, (f.column_eq_last_iff offset).mpr h]
    rfl

end SourceFile

/-! ## Where diagnostics stand -/

/-- The offsets of a declaration: its own, and those of the nodes of its body. -/
def Decl.offsets (decl : Decl) : List UInt64 :=
  decl.offset :: decl.body.toList.flatMap fun body => body.preorder.map Expr.offset

namespace Table

variable {t : Table}

theorem offset_of_mem_findings {decl : Decl} {l : Level} {f : Finding}
    (h : f ∈ (t.classify decl l).findings) : f.offset ∈ decl.offsets := by
  rcases hb : decl.body with _ | body
  · simp [classify, hb] at h
  · rw [classify_eq hb] at h
    obtain ⟨node, hnode, hf⟩ := List.mem_filterMap.mp h
    unfold findingBelow? at hf
    split at hf
    · obtain ⟨v, _, rfl⟩ := Option.map_eq_some_iff.mp hf
      simp only [Decl.offsets, hb, Option.toList_some, List.flatMap_singleton]
      exact List.mem_cons_of_mem _ (List.mem_map.mpr ⟨node, hnode, rfl⟩)
    · simp at hf

/-- All that is told of a function is told at one of its offsets. -/
theorem location_of_mem_told {d : SourceFile × Decl} {x : Diagnostic} (h : x ∈ t.told d) :
    ∃ o ∈ d.2.offsets, x.location = d.1.location o := by
  rcases t.check_cases d.1 d.2 with ⟨_, hc⟩ | ⟨_, _, hc⟩ | ⟨_, _, _, hc⟩ | ⟨_, _, hc⟩
  · simp [told_of_check hc] at h
  · rw [told_of_check hc] at h
    obtain ⟨f, hf, rfl⟩ := List.mem_map.mp h
    exact ⟨f.offset, offset_of_mem_findings hf, rfl⟩
  · rw [told_of_check hc] at h
    obtain rfl := List.mem_singleton.mp h
    exact ⟨d.2.offset, List.mem_cons_self, rfl⟩
  · simp [told_of_check hc] at h

end Table

theorem Checker.exists_of_mem_diagnostics {c : Config} {m : Module} {turns : List Nat}
    {x : Diagnostic} (h : x ∈ ((ofConfig c).run m turns).diagnostics) :
    ∃ d ∈ m.functions, x ∈ c.table.told d := by
  by_cases he : c.enabled = true
  · exact List.mem_flatMap.mp ((run_diagnostics_perm m turns he).mem_iff.mp h)
  · simp [run, ofConfig, he] at h

theorem Module.mem_files_of_mem_functions {m : Module} {d : SourceFile × Decl}
    (h : d ∈ m.functions) : d.1 ∈ m.files := by
  obtain ⟨f, hf, hd⟩ := List.mem_flatMap.mp h
  obtain ⟨_, _, rfl⟩ := List.mem_map.mp hd
  exact hf

/-! ## The law -/

/-- Whatever offsets and line tables the text of a module brings, every diagnostic stands at an
offset of its function, and its line is one more than the line of that offset. Its column is one more
than the column of the offset, unless the offset is the last word there is and its line starts at
zero. Then one more is no word, and the column is given as zero. The size of the text is a word, as
that of every text in memory: a table of more lines than there are words has no last line. -/
theorem positions_are_exact_but_for_the_last_column (path text : String) (m : Module) (c : Config)
    (turns : List Nat) (hparse : Module.parse path text = .ok m)
    (hsize : text.utf8ByteSize < UInt64.size) :
    ∀ d ∈ ((Checker.ofConfig c).run m turns).diagnostics,
      ∃ file decl, (file, decl) ∈ m.functions ∧ d ∈ c.table.told (file, decl) ∧
        ∃ o ∈ decl.offsets, d.location = file.location o ∧
          d.location.line.toNat = (file.lineAndColumn o).1 + 1 ∧
          (d.location.column.toNat = (file.lineAndColumn o).2.toNat + 1 ↔
            ¬ (o.toNat + 1 = UInt64.size ∧ file.lineStart o = 0)) ∧
          (o.toNat + 1 = UInt64.size ∧ file.lineStart o = 0 →
            (file.lineAndColumn o).2 = o ∧ d.location.column = 0) := by
  intro x hx
  obtain ⟨⟨file, decl⟩, hd, htold⟩ := Checker.exists_of_mem_diagnostics hx
  obtain ⟨o, ho, hlocation⟩ := Table.location_of_mem_told htold
  refine ⟨file, decl, hd, htold, o, ho, hlocation, ?_, ?_, ?_⟩
  · have htable := Module.length_lineStarts_le hparse (Module.mem_files_of_mem_functions hd)
    have hlength := length_le_utf8ByteSize text
    rw [hlocation]
    apply SourceFile.toNat_location_line
    exact Nat.lt_of_le_of_lt htable (Nat.max_lt.mpr ⟨by decide, by omega⟩)
  · rw [hlocation]
    exact file.location_column_iff o
  · intro hlast
    rw [hlocation]
    exact SourceFile.location_column_of_last hlast

/-- A function at the last offset there is, in a file of one line. -/
def atLastOffset (start : UInt64) : Module :=
  ⟨"m", [⟨"a.kt", [start],
    [⟨"m.f", .ofName "f", [], some (.const 0 .null), 18446744073709551615⟩]⟩]⟩

theorem parse_atLastOffset (start : UInt64) :
    Module.parse "m.json" (atLastOffset start).toJson.compact = .ok (atLastOffset start) := by
  have hfree : (atLastOffset start).FloatFree := by
    simp [atLastOffset, Module.FloatFree, Decl.FloatFree, Expr.nodes, Expr.isFloat]
  rw [Module.parse, (Module.tells hfree).parse_compact]
  rfl

theorem the_last_offset_is_exact_behind_a_later_start :
    let m := atLastOffset 1
    Module.parse "m.json" m.toJson.compact = .ok m ∧
      m.toJson.compact.utf8ByteSize < UInt64.size ∧
      ((Checker.ofConfig {}).run m).diagnostics.map (·.location) =
        [⟨"a.kt", 1, 18446744073709551615⟩] ∧
      ∀ d ∈ ((Checker.ofConfig {}).run m).diagnostics, ∃ file decl, (file, decl) ∈ m.functions ∧
        ∃ o ∈ decl.offsets, d.location = file.location o ∧
          d.location.line.toNat = (file.lineAndColumn o).1 + 1 := by
  intro m
  have hsize : m.toJson.compact.utf8ByteSize < UInt64.size := by decide +kernel
  refine ⟨parse_atLastOffset 1, hsize, by decide +kernel, ?_⟩
  intro d hd
  obtain ⟨file, decl, hf, _, o, ho, hlocation, hline, _⟩ :=
    positions_are_exact_but_for_the_last_column "m.json" _ m {} [] (parse_atLastOffset 1) hsize d hd
  exact ⟨file, decl, hf, o, ho, hlocation, hline⟩

/-- In a line that starts at zero, the column of the last offset should be one more than the greatest
word, and is given as zero. -/
theorem the_column_of_the_last_offset_is_zero :
    let m := atLastOffset 0
    Module.parse "m.json" m.toJson.compact = .ok m ∧
      m.files.map (·.lineAndColumn 18446744073709551615) = [(0, 18446744073709551615)] ∧
      ((Checker.ofConfig {}).run m).diagnostics.map (·.location) = [⟨"a.kt", 1, 0⟩] ∧
      ∀ d ∈ ((Checker.ofConfig {}).run m).diagnostics,
        d.location.column.toNat ≠ 18446744073709551615 + 1 ∧ ¬ 1 ≤ d.location.column.toNat :=
  ⟨parse_atLastOffset 0, by decide +kernel, by decide +kernel, by decide +kernel⟩

end Purity
