-- Finite binary64 numbers as exact fractions, and the number nearest to a decimal.

namespace Purity

/-- How many fractions there are between two powers of two: `2 ^ 52`. -/
abbrev Double.fractions : Nat := 0x10000000000000

/-- A finite binary64 number by the fields of its format. Each number has one such form. -/
structure Double where
  negative : Bool
  biased : Fin 2047
  fraction : Fin Double.fractions
  deriving DecidableEq, Repr

namespace Double

/-- The whole number `m` of the magnitude `m * 2 ^ q`. -/
def mantissa (x : Double) : Nat :=
  if x.biased.val = 0 then x.fraction.val else x.fraction.val + fractions

/-- The exponent `q` of the magnitude `m * 2 ^ q`. -/
def exponent (x : Double) : Int := (max x.biased.val 1 : Nat) - 1075

/-- The number `m * 2 ^ q`, if `m` has at most 53 bits and the number is finite. -/
def ofScaled? (negative : Bool) (m : Nat) (q : Int) : Option Double :=
  let (m, q) := if m = 2 * fractions then (fractions, q + 1) else (m, q)
  let biased := if m < fractions then 0 else (q + 1075).toNat
  let fraction := if m < fractions then m else m - fractions
  if h : biased < 2047 ∧ fraction < fractions then
    some ⟨negative, ⟨biased, h.1⟩, ⟨fraction, h.2⟩⟩
  else none

/-- The whole number nearest to `num / den`; a half goes to the even neighbour. -/
def roundDiv (num den : Nat) : Nat :=
  let whole := num / den
  let rest := num % den
  if 2 * rest > den || (2 * rest == den && whole % 2 == 1) then whole + 1 else whole

/-- The greatest `k` with `2 ^ k ≤ num / den`, for positive `num` and `den`. -/
def binaryScale (num den : Nat) : Int :=
  let k : Int := (Nat.log2 num : Int) - Nat.log2 den
  let reached :=
    if 0 ≤ k then den * Nat.pow 2 k.toNat ≤ num else den ≤ num * Nat.pow 2 (-k).toNat
  if reached then k else k - 1

/-- The number nearest to `num / den`; `none` beyond the largest finite number. -/
def ofRatio? (negative : Bool) (num den : Nat) : Option Double :=
  if num = 0 then ofScaled? negative 0 0
  else
    let q := max (binaryScale num den - 52) (-1074)
    let m :=
      if 0 ≤ q then roundDiv num (den * Nat.pow 2 q.toNat)
      else roundDiv (num * Nat.pow 2 (-q).toNat) den
    ofScaled? negative m q

/-- The number nearest to `digits * 10 ^ e`. What is far out of range is not computed. -/
def ofDecimal? (negative : Bool) (digits : Nat) (e : Int) : Option Double :=
  let top : Int := (Nat.toDigits 10 digits).length + e
  if digits = 0 || top < -400 then ofRatio? negative 0 1
  else if 400 < top then none
  else if 0 ≤ e then ofRatio? negative (digits * Nat.pow 10 e.toNat) 1
  else ofRatio? negative digits (Nat.pow 10 (-e).toNat)

end Double

end Purity
