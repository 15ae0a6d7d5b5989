-- The laws of single tokens. A string or a whole number is scanned back just as it was written,
-- whatever text stands behind it.
import Mathlib.Data.List.Induction
import Purity.Json.Scan

namespace Purity.Json

/-! ## Spaces -/

theorem skipSpace_append {spaces : List Char} (h : ∀ c ∈ spaces, isSpace c = true)
    (cs : List Char) : skipSpace (spaces ++ cs) = skipSpace cs :=
  List.dropWhile_append_of_pos h

theorem skipSpace_of_not_isSpace {c : Char} (h : isSpace c = false) (cs : List Char) :
    skipSpace (c :: cs) = c :: cs := by
  simp [skipSpace, h]

/-! ## Strings -/

/-- The piece that the escaped form of a character is scanned as. Controls without a letter of their
own are written by their number. -/
def pieceOf (c : Char) : Piece :=
  if c.toNat < 0x20 ∧ c ∉ ['\x08', '\x0c', '\n', '\r', '\t'] then .unit c.toNat else .char c

theorem hex_of_lt_sixteen :
    ∀ n < 16, Text.hex n = [n.digitChar] ∧ unit? '0' '0' '0' n.digitChar = some n := by
  decide

theorem hex_of_lt_thirtytwo :
    ∀ n < 32, 16 ≤ n → Text.hex n = ['1', (n - 16).digitChar] ∧
      unit? '0' '0' '1' (n - 16).digitChar = some n := by
  decide

theorem scanPieces_escapeChar (acc : List Piece) (c : Char) (cs : List Char) :
    scanPieces acc (escapeChar c ++ cs) = scanPieces (pieceOf c :: acc) cs := by
  unfold escapeChar
  split
  · subst_vars
    rfl
  split
  · subst_vars
    rfl
  split
  · subst_vars
    rfl
  split
  · subst_vars
    rfl
  split
  · subst_vars
    rfl
  split
  · subst_vars
    rfl
  split
  · subst_vars
    rfl
  rename_i hquote hslash hb hf hn hr ht
  have hletter : c ∉ ['\x08', '\x0c', '\n', '\r', '\t'] := by simp [hb, hf, hn, hr, ht]
  split
  · rename_i h
    obtain ⟨hd, hu⟩ := hex_of_lt_sixteen c.toNat h
    have hpiece : pieceOf c = .unit c.toNat := if_pos ⟨Nat.lt_trans h (by decide), hletter⟩
    simp [hd, scanPieces, hu, hpiece]
  split
  · rename_i h16 h
    obtain ⟨hd, hu⟩ := hex_of_lt_thirtytwo c.toNat h (Nat.le_of_not_lt h16)
    have hpiece : pieceOf c = .unit c.toNat := if_pos ⟨h, hletter⟩
    simp [hd, scanPieces, hu, hpiece]
  · rename_i h16 h
    have hpiece : pieceOf c = .char c := if_neg fun hc => h hc.1
    simp [hpiece, scanPieces, hslash, h]

/-- Pieces of characters are joined one by one. None of them is half of a pair. -/
theorem joinPieces_pieceOf (c : Char) (ps : List Piece) (text : List Char) :
    joinPieces (pieceOf c :: ps) text = joinPieces ps (c :: text) := by
  unfold pieceOf
  split
  · rename_i h
    have hhigh : isHigh c.toNat = false := by
      simp only [isHigh, Bool.and_eq_false_iff, decide_eq_false_iff_not]
      omega
    have hlow : isLow c.toNat = false := by
      simp only [isLow, Bool.and_eq_false_iff, decide_eq_false_iff_not]
      omega
    cases ps with
    | nil => simp [joinPieces, hhigh, hlow]
    | cons p ps => cases p <;> simp [joinPieces, hhigh, hlow]
  · rw [joinPieces]

theorem scanPieces_flatMap (cs rest : List Char) (acc : List Piece) :
    scanPieces acc (cs.flatMap escapeChar ++ '"' :: rest) =
      ((cs.map pieceOf).reverse ++ acc, .ok rest) := by
  induction cs generalizing acc with
  | nil => simp [scanPieces]
  | cons c cs ih =>
    rw [List.flatMap_cons, List.append_assoc, scanPieces_escapeChar, ih]
    simp

theorem joinPieces_map (cs text : List Char) :
    joinPieces (cs.map pieceOf).reverse text = some (cs ++ text) := by
  -- The pieces stand last first, so the text grows from its end.
  induction cs using List.reverseRecOn generalizing text with
  | nil => rfl
  | append_singleton cs c ih =>
    rw [List.map_append, List.reverse_append, List.map_singleton, List.reverse_singleton,
      List.singleton_append, joinPieces_pieceOf, ih, List.append_assoc, List.singleton_append]

theorem scanString_written (s : String) (rest : List Char) :
    scanString (s.toList.flatMap escapeChar ++ '"' :: rest) = .ok (some s, rest) := by
  unfold scanString
  rw [scanPieces_flatMap, List.append_nil]
  simp only [joinPieces_map, List.append_nil, Option.map_some, String.ofList_toList]

/-! ## Whole numbers -/

/-- No number goes on into the text. -/
def Ends (rest : List Char) : Prop :=
  ∀ c cs, rest = c :: cs → c.isDigit = false ∧ c ≠ '.' ∧ c ≠ 'e' ∧ c ≠ 'E'

theorem ends_nil : Ends [] := by
  intro c cs h
  simp at h

theorem ends_cons {c : Char} {cs : List Char}
    (h : c.isDigit = false ∧ c ≠ '.' ∧ c ≠ 'e' ∧ c ≠ 'E') : Ends (c :: cs) := by
  intro c' cs' heq
  cases heq
  exact h

theorem ends_append {spaces rest : List Char} (hs : ∀ c ∈ spaces, isSpace c = true)
    (h : Ends rest) : Ends (spaces ++ rest) := by
  cases spaces with
  | nil => exact h
  | cons c cs =>
    have hc : isSpace c = true := hs c List.mem_cons_self
    simp only [isSpace, Bool.or_eq_true, decide_eq_true_eq] at hc
    rcases hc with ((rfl | rfl) | rfl) | rfl <;> exact ends_cons (by decide)

theorem takeWhile_isDigit_append {ds rest : List Char} (hd : ∀ c ∈ ds, c.isDigit = true)
    (h : Ends rest) : (ds ++ rest).takeWhile Char.isDigit = ds := by
  rw [List.takeWhile_append_of_pos hd]
  cases rest with
  | nil => simp
  | cons c cs => simp [(h c cs rfl).1]

theorem dropWhile_isDigit_append {ds rest : List Char} (hd : ∀ c ∈ ds, c.isDigit = true)
    (h : Ends rest) : (ds ++ rest).dropWhile Char.isDigit = rest := by
  rw [List.dropWhile_append_of_pos hd]
  cases rest with
  | nil => simp
  | cons c cs => simp [(h c cs rfl).1]

theorem isDigit_of_mem_toDigits {n : Nat} {c : Char} (h : c ∈ Nat.toDigits 10 n) :
    c.isDigit = true :=
  Nat.isDigit_of_mem_toDigits (by decide) (by decide) h

/-- No number but zero begins with a zero. -/
theorem head?_toDigits_ne_zero (n : Nat) (h : 0 < n) : (Nat.toDigits 10 n).head? ≠ some '0' := by
  induction n using Nat.strongRecOn with
  | ind n ih =>
    rw [Nat.toDigits_eq_if (by decide)]
    split
    · rename_i hlt
      have hdigit : ∀ m < 10, 0 < m → m.digitChar ≠ '0' := by decide
      simpa using hdigit n hlt h
    · rename_i hge
      have hsome : (Nat.toDigits 10 (n / 10)).head?.isSome := by
        rw [List.isSome_head?]
        exact Nat.toDigits_ne_nil
      rw [List.head?_append, Option.or_of_isSome hsome]
      exact ih (n / 10) (by omega) (by omega)

theorem toDigits_ne_zero_cons (n : Nat) (c : Char) (cs : List Char) :
    Nat.toDigits 10 n ≠ '0' :: c :: cs := by
  intro h
  rcases Nat.eq_zero_or_pos n with rfl | hn
  · simp at h
  · exact head?_toDigits_ne_zero n hn (by rw [h]; rfl)

theorem scanPlaces_of_ends {rest : List Char} (h : Ends rest) (negative : Bool)
    (whole : List Char) :
    scanPlaces negative whole rest = (numberOf negative whole [] none, rest) := by
  cases rest with
  | nil => rfl
  | cons c cs =>
    obtain ⟨_, hdot, he, hE⟩ := h c cs rfl
    rw [scanPlaces.eq_def]
    split
    · simp_all
    · rw [scanExponent.eq_def]
      split <;> simp_all

theorem scanNumber_toDigits {rest : List Char} (h : Ends rest) (negative : Bool) (n : Nat) :
    scanNumber negative (Nat.toDigits 10 n ++ rest) =
      (numberOf negative (Nat.toDigits 10 n) [] none, rest) := by
  have hd : ∀ c ∈ Nat.toDigits 10 n, c.isDigit = true := fun c => isDigit_of_mem_toDigits
  unfold scanNumber
  rw [takeWhile_isDigit_append hd h, dropWhile_isDigit_append hd h]
  split
  · rename_i hnil
    exact absurd hnil Nat.toDigits_ne_nil
  · rename_i hzero
    exact absurd hzero (toDigits_ne_zero_cons n _ _)
  · exact scanPlaces_of_ends h negative _

theorem numberOf_toDigits {n : Nat} (h : n < UInt64.size) :
    numberOf false (Nat.toDigits 10 n) [] none = .number (.int n) := by
  simp [numberOf, Nat.ofDigitChars_toDigits, h]

theorem numberOf_negative_toDigits {n : Nat} (hpos : 0 < n) (h : n ≤ 0x8000000000000000) :
    numberOf true (Nat.toDigits 10 n) [] none = .number (.int (-n)) := by
  simp [numberOf, Nat.ofDigitChars_toDigits, hpos, h]

end Purity.Json
