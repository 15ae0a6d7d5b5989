-- The fewest decimal digits that read back as a given number, and how they are written.
import Purity.Double

namespace Purity.Double

/-- The decimals that read back as a number: those between `low / den` and `high / den`, with
the ends when `closed`. The number itself is `value / den`. -/
structure Range where
  value : Nat
  low : Nat
  high : Nat
  den : Nat
  closed : Bool

/-- The range of a magnitude. The gap below a power of two is half the gap above it. -/
def range (x : Double) : Range :=
  let m := x.mantissa
  let below := if x.fraction.val = 0 && 1 < x.biased.val then 1 else 2
  let e := x.exponent - 2
  let scale := if 0 ≤ e then Nat.pow 2 e.toNat else 1
  { value := 4 * m * scale
    low := (4 * m - below) * scale
    high := (4 * m + 2) * scale
    den := if 0 ≤ e then 1 else Nat.pow 2 (-e).toNat
    closed := m % 2 == 0 }

/-- Whether the decimal `d * 10 ^ e` reads back as the number. -/
def Range.holds (r : Range) (d : Nat) (e : Int) : Bool :=
  let point := if 0 ≤ e then d * Nat.pow 10 e.toNat * r.den else d * r.den
  let unit := if 0 ≤ e then 1 else Nat.pow 10 (-e).toNat
  if r.closed then r.low * unit ≤ point && point ≤ r.high * unit
  else r.low * unit < point && point < r.high * unit

/-- The number's two neighbours on the grid of whole multiples of `10 ^ e`: the lower one, and
twice its distance from the number against one step of the grid. -/
def Range.floor (r : Range) (e : Int) : Nat × Ordering :=
  let num := if 0 ≤ e then r.value else r.value * Nat.pow 10 (-e).toNat
  let den := if 0 ≤ e then r.den * Nat.pow 10 e.toNat else r.den
  (num / den, compare (2 * (num % den)) den)

/-- The neighbour on the grid of `10 ^ e` that reads back; of two the nearer, of two as near the
even one. -/
def Range.pick? (r : Range) (e : Int) : Option Nat :=
  let (d, side) := r.floor e
  match r.holds d e, r.holds (d + 1) e with
  | false, false => none
  | true, false => some d
  | false, true => some (d + 1)
  | true, true =>
    match side with
    | .lt => some d
    | .gt => some (d + 1)
    | .eq => if d % 2 == 0 then some d else some (d + 1)

/-- The first of the grids with 1, 2, … places that has a decimal which reads back. `top` is the
exponent just above the leading digit. -/
def Range.search (r : Range) (top : Int) : Nat → Nat → Nat × Int
  | 0, places => (r.floor (top - places) |>.1, top - places)
  | fuel + 1, places =>
    match r.pick? (top - places) with
    | some d => (d, top - places)
    | none => search r top fuel (places + 1)

/-- The exponent just above the leading decimal digit of `num / den`, searched from a guess. -/
def decimalTop (num den : Nat) : Int :=
  let guess : Int := (Nat.toDigits 10 num).length - (Nat.toDigits 10 den).length
  let reached :=
    if 0 ≤ guess then den * Nat.pow 10 guess.toNat ≤ num else den ≤ num * Nat.pow 10 (-guess).toNat
  if reached then guess + 1 else guess

/-- Drops the zeros at the end of a whole number, counting them. -/
def dropZeros : Nat → Nat → Int → Nat × Int
  | 0, d, e => (d, e)
  | fuel + 1, d, e => if d % 10 == 0 && d != 0 then dropZeros fuel (d / 10) (e + 1) else (d, e)

/-- The shortest `d * 10 ^ e` that reads back as the magnitude of a number. -/
def shortest (x : Double) : Nat × Int :=
  if x.mantissa = 0 then (0, 0)
  else
    let r := x.range
    let (d, e) := r.search (decimalTop r.value r.den) 17 1
    dropZeros 20 d e

/-- The text of a number. From `1e-5` up to below `1e16` it is positional with at least one
place; outside it has one leading digit and a signed exponent. -/
def text (x : Double) : List Char :=
  let (d, e) := x.shortest
  let ds := Nat.toDigits 10 d
  let lead : Int := ds.length - 1 + e
  let zeros (n : Int) : List Char := List.replicate n.toNat '0'
  let body :=
    if d = 0 then ['0', '.', '0']
    else if lead < -5 || 16 ≤ lead then
      let places := match ds.tail with
        | [] => []
        | t => '.' :: t
      let sign := if lead < 0 then '-' else '+'
      ds.take 1 ++ places ++ ['e', sign] ++ Nat.toDigits 10 lead.natAbs
    else if lead < 0 then ['0', '.'] ++ zeros (-lead - 1) ++ ds
    else if 0 ≤ e then ds ++ zeros e ++ ['.', '0']
    else ds.take (lead.toNat + 1) ++ ['.'] ++ ds.drop (lead.toNat + 1)
  if x.negative then '-' :: body else body

end Purity.Double
