-- A file with settings that lists names, and how it compares with a list on the command line. Every
-- list of names can be written to such a file, whatever characters they have, and the names are
-- trusted just as if the same list had been given with commas between them.
import Purity.Config.File
import Purity.Proofs.Trimming
import Purity.Proofs.Trust

namespace Purity

namespace Toml

/-! ## Names in quotes -/

/-- A character of a name in quotes. Quotes, backslashes and controls are written by their numbers. -/
def quoteChar (c : Char) : List Char :=
  if c = '"' || c = '\\' || !isPlain c then
    ['\\', 'u', '0', '0', Nat.digitChar (c.toNat / 16), Nat.digitChar (c.toNat % 16)]
  else [c]

/-- A name as an item of an array. -/
def quoteItem (name : String) : List Char := '"' :: (name.toList.flatMap quoteChar ++ ['"', ','])

theorem toNat_lt_of_escaped {c : Char} (h : (c = '"' || c = '\\' || !isPlain c) = true) :
    c.toNat < 128 := by
  simp only [Bool.or_eq_true, decide_eq_true_eq, Bool.not_eq_true', isPlain] at h
  rcases h with (rfl | rfl) | h
  · decide
  · decide
  · simp at h
    omega

theorem codePoint_digits {n : Nat} (h : n < 128) (rest : List Char) :
    codePoint 4 ('0' :: '0' :: Nat.digitChar (n / 16) :: Nat.digitChar (n % 16) :: rest) =
      some (Char.ofNat n, rest) := by
  have hdigits : ∀ n < 128,
      ['0', '0', Nat.digitChar (n / 16), Nat.digitChar (n % 16)].all isHexDigit = true ∧
        scalar? (valueIn 16 ['0', '0', Nat.digitChar (n / 16), Nat.digitChar (n % 16)]) =
          some (Char.ofNat n) := by
    decide +kernel
  obtain ⟨hall, hvalue⟩ := hdigits n h
  simp only [codePoint, List.take_succ_cons, List.take_zero, List.drop_succ_cons, List.drop_zero]
  rw [hall, hvalue]
  rfl

theorem basicText_quoteChar (fuel : Nat) (acc : List Char) (c : Char) (rest : List Char) :
    basicText (fuel + 1) acc (quoteChar c ++ rest) = basicText fuel (c :: acc) rest := by
  unfold quoteChar
  split
  · rename_i h
    have hpoint := codePoint_digits (toNat_lt_of_escaped h) rest
    rw [Char.ofNat_toNat] at hpoint
    simp only [List.cons_append, List.nil_append, basicText, escape, hpoint]
  · rename_i h
    simp only [Bool.or_eq_true, decide_eq_true_eq, Bool.not_eq_true', not_or, Bool.not_eq_false] at h
    obtain ⟨⟨hquote, hslash⟩, hplain⟩ := h
    rw [List.singleton_append, basicText]
    · rw [if_pos hplain]
    · exact hquote
    · exact hslash

theorem basicText_quoted {cs : List Char} {fuel : Nat} (h : cs.length < fuel) (acc rest : List Char) :
    basicText fuel acc (cs.flatMap quoteChar ++ '"' :: rest) =
      some (String.ofList (acc.reverse ++ cs), rest) := by
  induction cs generalizing fuel acc with
  | nil =>
    obtain ⟨fuel, rfl⟩ := Nat.exists_eq_succ_of_ne_zero (Nat.ne_zero_of_lt h)
    simp [basicText]
  | cons c cs ih =>
    obtain ⟨fuel, rfl⟩ := Nat.exists_eq_succ_of_ne_zero (Nat.ne_zero_of_lt h)
    rw [List.flatMap_cons, List.append_assoc, basicText_quoteChar,
      ih (Nat.lt_of_succ_lt_succ h), List.reverse_cons, List.append_assoc]
    rfl

theorem quoteChar_eq_cons (c : Char) : ∃ d ds, quoteChar c = d :: ds ∧ d ≠ '"' := by
  unfold quoteChar
  split
  · exact ⟨_, _, rfl, by decide⟩
  · rename_i h
    refine ⟨c, [], rfl, ?_⟩
    rintro rfl
    simp at h

theorem length_le_quoted (cs : List Char) : cs.length ≤ (cs.flatMap quoteChar).length := by
  induction cs with
  | nil => exact Nat.le_refl _
  | cons c cs ih =>
    obtain ⟨d, ds, hquote, _⟩ := quoteChar_eq_cons c
    rw [List.flatMap_cons, List.length_append, hquote, List.length_cons, List.length_cons]
    omega

theorem quotedText_item (name : String) (rest : List Char) :
    quotedText (quoteItem name ++ rest) = some (name, ',' :: rest) := by
  have hitem : quoteItem name ++ rest =
      '"' :: (name.toList.flatMap quoteChar ++ '"' :: ',' :: rest) := by
    simp [quoteItem]
  -- An empty name has two quotes, and a comma behind them; three would open a longer text.
  have hshort : quotedText (quoteItem name ++ rest) = shortText (quoteItem name ++ rest) := by
    rw [hitem]
    cases name.toList with
    | nil => rfl
    | cons c cs =>
      obtain ⟨d, ds, hquote, hd⟩ := quoteChar_eq_cons c
      rw [List.flatMap_cons, hquote]
      unfold quotedText
      split
      · rename_i heq
        simp only [List.cons_append, List.cons.injEq, true_and] at heq
        exact absurd heq.1 hd
      · rename_i heq
        simp at heq
      · rfl
  have hfuel : name.toList.length <
      (name.toList.flatMap quoteChar ++ '"' :: ',' :: rest).length + 1 := by
    have := length_le_quoted name.toList
    rw [List.length_append]
    omega
  rw [hshort, hitem, shortText, basicText_quoted hfuel]
  simp

/-! ## Arrays of names -/

theorem skipLines_of_ne {c : Char} (h : c ∉ [' ', '\t', '#', '\n', '\r']) (fuel : Nat)
    (cs : List Char) : skipLines fuel (c :: cs) = c :: cs := by
  simp only [List.mem_cons, List.not_mem_nil, or_false, not_or] at h
  obtain ⟨hspace, htab, hmark, hline, hreturn⟩ := h
  cases fuel with
  | zero => rfl
  | succ fuel =>
    have hblanks : skipBlanks (c :: cs) = c :: cs :=
      List.dropWhile_cons_of_neg (by simp [isBlank, hspace, htab])
    have hcomment : skipComment (c :: cs) = c :: cs := by
      unfold skipComment
      split
      · rename_i heq
        exact absurd (List.cons.inj heq).1 hmark
      · rfl
    have hnewline : newline? (c :: cs) = none := by
      unfold newline?
      split
      · rename_i heq
        exact absurd (List.cons.inj heq).1 hline
      · rename_i heq
        exact absurd (List.cons.inj heq).1 hreturn
      · rfl
    rw [skipLines, hblanks, hcomment, hnewline]

theorem scanItems_item (depth fuel : Nat) (acc : List Value) (name : String) (rest : List Char) :
    scanItems depth (fuel + 2) acc (quoteItem name ++ rest) =
      scanItems depth (fuel + 1) (.string name :: acc) rest := by
  have hvalue : scanValue depth (fuel + 1) (quoteItem name ++ rest) =
      some (.string name, ',' :: rest) := by
    change (quotedText (quoteItem name ++ rest)).map _ = _
    rw [quotedText_item]
    rfl
  have hskip : skipLines (quoteItem name ++ rest).length (quoteItem name ++ rest) =
      quoteItem name ++ rest := skipLines_of_ne (by decide) _ _
  rw [scanItems, hskip]
  change (scanValue depth (fuel + 1) (quoteItem name ++ rest)).bind _ = _
  rw [hvalue, Option.bind_some]
  dsimp only
  rw [skipLines_of_ne (by decide)]
  rfl

theorem scanItems_quoted {names : List String} {fuel : Nat} (h : names.length < fuel) (depth : Nat)
    (acc : List Value) (rest : List Char) :
    scanItems depth fuel acc (names.flatMap quoteItem ++ ']' :: rest) =
      some (acc.reverse ++ names.map .string, rest) := by
  induction names generalizing fuel acc with
  | nil =>
    obtain ⟨fuel, rfl⟩ := Nat.exists_eq_succ_of_ne_zero (Nat.ne_zero_of_lt h)
    rw [List.flatMap_nil, List.nil_append, scanItems, skipLines_of_ne (by decide)]
    simp
  | cons name names ih =>
    have hlength : names.length + 1 < fuel := h
    obtain ⟨fuel, rfl⟩ := Nat.exists_eq_add_of_le' (Nat.le_trans (Nat.le_add_left 2 _) hlength)
    rw [List.flatMap_cons, List.append_assoc, scanItems_item, ih (Nat.lt_of_succ_lt_succ hlength)]
    simp

theorem scanDocument_entry {fuel : Nat} {d d' : Draft} {c : Char} {cs rest more : List Char}
    {path : List String} {key : String} {v : Value}
    (hc : c ∉ [' ', '\t', '#', '\n', '\r', '['])
    (hkey : dottedKey (c :: cs) = some (path, key, '=' :: rest))
    (hvalue : scanValue 0 (2 * (skipBlanks rest).length + 2) (skipBlanks rest) =
      some (v, '\n' :: more))
    (hentry : d.addEntry path key v = some d') :
    scanDocument (fuel + 1) d (c :: cs) = scanDocument fuel d' more := by
  have hend : endLine ('\n' :: more) = some more := rfl
  simp only [List.mem_cons, List.not_mem_nil, or_false, not_or] at hc
  rw [scanDocument, skipLines_of_ne (by simpa using ⟨hc.1, hc.2.1, hc.2.2.1, hc.2.2.2.1, hc.2.2.2.2.1⟩)]
  split
  · rename_i heq
    cases heq
  · rename_i heq
    exact absurd (List.cons.inj heq).1 hc.2.2.2.2.2
  · rw [hkey]
    simp [hvalue, hentry, hend]

end Toml

/-! ## The file -/

namespace Config

/-- A file that lists names. -/
def listing (names : List String) : String :=
  String.ofList ("[purity]\n".toList ++ ("pure_function_names = [".toList ++
    (names.flatMap Toml.quoteItem ++ "]\n".toList)))

/-- The document behind the header of the settings. -/
def opened : Toml.Draft := ⟨.new .header, some ⟨[], "purity", false, .new .header⟩⟩

theorem scanDocument_header (fuel : Nat) (rest : List Char) :
    Toml.scanDocument (fuel + 1) .empty ("[purity]\n".toList ++ rest) =
      Toml.scanDocument fuel opened rest := by
  have hheader : Toml.scanHeader .empty ("purity]\n".toList ++ rest) = some (opened, rest) := rfl
  have hchars : "[purity]\n".toList ++ rest = '[' :: ("purity]\n".toList ++ rest) := rfl
  rw [hchars, Toml.scanDocument, Toml.skipLines_of_ne (by decide)]
  change (Toml.scanHeader .empty ("purity]\n".toList ++ rest)).bind _ = _
  rw [hheader]
  rfl

theorem scanValue_names {names : List String} {fuel : Nat} (h : names.length < fuel) :
    Toml.scanValue 0 (fuel + 1) ('[' :: (names.flatMap Toml.quoteItem ++ "]\n".toList)) =
      some (.array false (names.map .string), ['\n']) := by
  have hitems := Toml.scanItems_quoted h 1 [] ['\n']
  change (Toml.scanItems 1 fuel [] (names.flatMap Toml.quoteItem ++ ']' :: ['\n'])).map _ = _
  rw [hitems]
  rfl

theorem length_le_items (names : List String) :
    names.length ≤ (names.flatMap Toml.quoteItem).length := by
  induction names with
  | nil => exact Nat.le_refl _
  | cons name names ih =>
    rw [List.flatMap_cons, List.length_append, List.length_cons, Toml.quoteItem, List.length_cons]
    omega

theorem scanDocument_names (fuel : Nat) (names : List String) :
    Toml.scanDocument (fuel + 2) opened ("pure_function_names = [".toList ++
      (names.flatMap Toml.quoteItem ++ "]\n".toList)) =
    some ⟨.header, [("purity",
      .table .header [("pure_function_names", .array false (names.map .string))])]⟩ := by
  generalize hitems : names.flatMap Toml.quoteItem ++ "]\n".toList = items
  have hkey : Toml.dottedKey ("pure_function_names = [".toList ++ items) =
      some ([], "pure_function_names", "= [".toList ++ items) := rfl
  have hvalue : Toml.scanValue 0 (2 * ('[' :: items).length + 2) ('[' :: items) =
      some (.array false (names.map .string), ['\n']) := by
    rw [← hitems]
    apply scanValue_names
    have := length_le_items names
    rw [List.length_cons, List.length_append]
    omega
  have hentry : opened.addEntry [] "pure_function_names" (.array false (names.map .string)) =
      some ⟨.new .header, some ⟨[], "purity", false,
        ⟨.header, [("pure_function_names", .array false (names.map .string))]⟩⟩⟩ := rfl
  exact (Toml.scanDocument_entry (by decide) hkey hvalue hentry).trans rfl

theorem parse_listing (names : List String) :
    Toml.parse (listing names) = some ⟨.header, [("purity",
      .table .header [("pure_function_names", .array false (names.map .string))])]⟩ := by
  generalize hitems : "pure_function_names = [".toList ++
    (names.flatMap Toml.quoteItem ++ "]\n".toList) = items
  have hparse : Toml.parse (listing names) =
      Toml.scanDocument (items.length + 7 + 2 + 1) .empty ("[purity]\n".toList ++ items) := by
    unfold Toml.parse listing
    rw [String.toList_ofList, hitems]
    rfl
  rw [hparse, scanDocument_header, ← hitems, scanDocument_names]

theorem ofDocument?_listing (names : List String) :
    (Toml.parse (listing names)).bind ofDocument? = some { names } := by
  have hstrings : (names.map Toml.Value.string).mapM Toml.Value.string? = some names := by
    induction names with
    | nil => rfl
    | cons name names ih => simp [ih, Toml.Value.string?]
  rw [parse_listing, Option.bind_some]
  change ofValues? none (some (.array false (names.map .string))) none = _
  simp only [ofValues?, given, Toml.Value.strings?, hstrings]
  rfl

/-- Settings that are read from a file are trimmed. -/
theorem parse_of_ofDocument? {text : String} {c : Config}
    (h : (Toml.parse text).bind ofDocument? = some c) : parse text = .ok c.normalize := by
  unfold parse
  rw [h]

/-! ## The law -/

/-- Trimming the names of settings once is enough, and the table trusts the same names with and
without it: those that are left of the given names without the blanks at their ends, as far as
anything is left. If no name has a comma, then a list with commas between the names is split into
just the trimmed names. So whatever the settings were, such a list on the command line gives every
function the level that it has under a file with these names, and every list of names can be
written to a file. -/
theorem all_routes_trust_the_same_names :
    (∀ c : Config, c.normalize.normalize = c.normalize ∧
      (∀ name, name ∈ c.normalize.table.trusted ↔ name ∈ c.table.trusted) ∧
      ∀ name, name ∈ c.table.trusted ↔ name ≠ "" ∧ ∃ given ∈ c.names, Text.Trims given name) ∧
    ∀ names : List String, (∀ name ∈ names, ',' ∉ name.toList) →
      let joined := ",".intercalate names
      splitNames joined = ({ names } : Config).normalize.names ∧
        (Toml.parse (listing names)).bind ofDocument? = some { names } ∧
        ∀ (base listed : Config) (o : Overrides) (text : String), o.names = some joined →
          (Toml.parse text).bind ofDocument? = some listed → listed.names = names →
          ∃ c, parse text = .ok c ∧
            ∀ s, (base.override o).table.declaredLevel s = c.table.declaredLevel s := by
  constructor
  · intro c
    refine ⟨c.normalize_normalize, ?_, ?_⟩
    · intro name
      rw [table_of_trimAll rfl]
    · intro name
      exact Table.mem_trusted_ofNames.trans Text.mem_trimAll
  · intro names hcommas joined
    have hsplit : splitNames joined = Text.trimAll names := splitNames_intercalate hcommas
    refine ⟨hsplit, ofDocument?_listing names, ?_⟩
    intro base listed o text ho htext hlisted
    refine ⟨listed.normalize, parse_of_ofDocument? htext, ?_⟩
    intro s
    have hover : (base.override o).names = Text.trimAll listed.names := by
      rw [hlisted, ← hsplit]
      simp only [override, ho]
    have hnormalize : listed.normalize.names = Text.trimAll listed.names := rfl
    rw [table_of_trimAll hover, table_of_trimAll hnormalize]

/-- Names with blanks around them, names that are blank, a name with a quote, and one name twice. -/
def awkwardNames : List String := [" max\t", "", "\u3000", "a\"b", "max"]

theorem awkward_names_are_trusted_on_all_routes :
    (∀ name ∈ awkwardNames, ',' ∉ name.toList) ∧
      splitNames (",".intercalate awkwardNames) = ["max", "a\"b", "max"] ∧
      ∃ c, parse (listing awkwardNames) = .ok c ∧
        ∀ s, (({ names := ["min"] } : Config).override
          { names := some (",".intercalate awkwardNames) }).table.declaredLevel s =
            c.table.declaredLevel s := by
  have hcommas : ∀ name ∈ awkwardNames, ',' ∉ name.toList := by decide +kernel
  obtain ⟨hsplit, hlisting, hlevel⟩ := all_routes_trust_the_same_names.2 awkwardNames hcommas
  refine ⟨hcommas, hsplit.trans (by decide +kernel), ?_⟩
  exact hlevel _ _ _ _ rfl hlisting rfl

end Config

end Purity
