-- TOML values that hold no others: words, numbers and dates.
import Purity.Toml.Value

namespace Purity.Toml

/-! ## Numbers -/

/-- Whether a character is a digit in base sixteen. -/
def isHexDigit (c : Char) : Bool := c.isDigit || ('a' ≤ c && c ≤ 'f') || ('A' ≤ c && c ≤ 'F')

/-- Whether a character marks an exponent. -/
def isExponentMark (c : Char) : Bool := c = 'e' || c = 'E'

/-- The digits of a run, without the underscores among them. -/
def digitRun (isDigit : Char → Bool) (cs : List Char) : Option (List Char) :=
  let digits := cs.filter (· ≠ '_')
  if !digits.isEmpty && digits.all isDigit then some digits else none

/-- Whether each underscore of a number stands between digits. -/
def isGrouped (isDigit : Char → Bool) (cs : List Char) : Bool :=
  let groups := cs.splitOn '_'
  groups.tail.all (fun g => g.head?.any isDigit) &&
    groups.dropLast.all fun g => g.getLast?.any isDigit

/-- Whether a zero stands in front of more. -/
def isPadded (cs : List Char) : Bool := cs.head? = some '0' && 1 < cs.length

/-- The value of digits in a base up to sixteen. -/
def valueIn (base : Nat) (digits : List Char) : Nat :=
  digits.foldl (fun n c =>
    n * base + if c.isDigit then c.toNat - 48 else c.toLower.toNat - 87) 0

/-- A whole number, if it fits 128 bits. -/
def integer (i : Int) : Value :=
  if -0x80000000000000000000000000000000 ≤ i && i < 0x100000000000000000000000000000000 then
    .integer i
  else .illegible

/-- A decimal fraction, if it is within the range of doubles. -/
def decimal (negative : Bool) (whole places : List Char) (exponent : Int) : Value :=
  let digits := Nat.ofDigitChars 10 (whole ++ places) 0
  match Double.ofDecimal? negative digits (exponent - places.length) with
  | some x => .float (some x)
  | none => .illegible

/-- The exponent of a number, behind its mark. -/
def exponent (cs : List Char) : Option Int :=
  match cs with
  | '+' :: ds => (digitRun Char.isDigit ds).map fun ds => (Nat.ofDigitChars 10 ds 0 : Int)
  | '-' :: ds => (digitRun Char.isDigit ds).map fun ds => -(Nat.ofDigitChars 10 ds 0 : Int)
  | ds => (digitRun Char.isDigit ds).map fun ds => (Nat.ofDigitChars 10 ds 0 : Int)

/-- A number with places or an exponent, from behind its sign. -/
def fraction (negative : Bool) (cs : List Char) : Option Value := do
  let power ← match cs.dropWhile (!isExponentMark ·) with
    | [] => some 0
    | _ :: ds => exponent ds
  match (cs.takeWhile (!isExponentMark ·)).splitOn '.' with
  | [whole] =>
    if isPadded whole then none else some (decimal negative (← digitRun Char.isDigit whole) [] power)
  | [whole, places] =>
    if isPadded whole then none
    else some (decimal negative (← digitRun Char.isDigit whole) (← digitRun Char.isDigit places) power)
  | _ => none

/-- A whole number, from behind its sign. -/
def whole (negative : Bool) (cs : List Char) : Option Value :=
  if isPadded cs then none
  else
    match digitRun Char.isDigit cs with
    | some digits =>
      let n : Int := Nat.ofDigitChars 10 digits 0
      some (integer (if negative then -n else n))
    | none => some .illegible

/-- A number in another base, from behind its mark. -/
def radix (base : Nat) (isDigit : Char → Bool) (cs : List Char) : Option Value :=
  match cs with
  | [] => some .illegible
  | _ => if isGrouped isDigit cs then (digitRun isDigit cs).map (integer <| valueIn base ·) else none

/-- The text of a number from behind its sign. -/
def afterSign (cs : List Char) : List Char :=
  match cs with
  | '+' :: cs => cs
  | '-' :: cs => cs
  | cs => cs

/-- A number. Other bases have no sign. In a whole number with underscores only these are looked at
here; whether all else are digits matters to those who want the value. -/
def number (cs : List Char) : Option Value :=
  match cs with
  | '0' :: 'x' :: ds => radix 16 isHexDigit ds
  | '0' :: 'o' :: ds => radix 8 (fun c => '0' ≤ c && c ≤ '7') ds
  | '0' :: 'b' :: ds => radix 2 (fun c => c = '0' || c = '1') ds
  | _ =>
    let negative := cs.head? = some '-'
    let body := afterSign cs
    let rest := body.dropWhile Char.isDigit
    if body = ['i', 'n', 'f'] || body = ['n', 'a', 'n'] then some (.float none)
    else if rest.any fun c => c = '.' || isExponentMark c then
      if isGrouped Char.isDigit cs then fraction negative body else none
    else if body.isEmpty then none
    else if rest.contains ' ' then none
    else if (rest.isEmpty || rest.head? = some '_') && isGrouped isHexDigit cs then
      whole negative body
    else none

/-! ## Dates -/

/-- The value of exactly `count` digits. -/
def exactly (count : Nat) (cs : List Char) : Option Nat :=
  if cs.length = count && cs.all Char.isDigit then some (Nat.ofDigitChars 10 cs 0) else none

/-- The number of days of a month. -/
def daysIn (year month : Nat) : Nat :=
  if month = 2 then
    if year % 4 = 0 && (year % 100 ≠ 0 || year % 400 = 0) then 29 else 28
  else if month = 4 || month = 6 || month = 9 || month = 11 then 30
  else 31

/-- Whether the text is a day of the calendar. -/
def isDay (cs : List Char) : Bool :=
  match cs.splitOn '-' with
  | [y, m, d] =>
    match exactly 4 y, exactly 2 m, exactly 2 d with
    | some y, some m, some d => 1 ≤ m && m ≤ 12 && 1 ≤ d && d ≤ daysIn y m
    | _, _, _ => false
  | _ => false

/-- Whether the text is a number of two digits up to `most`. -/
def isUpTo (most : Nat) (cs : List Char) : Bool :=
  match exactly 2 cs with
  | some n => n ≤ most
  | none => false

/-- Whether the text is a time of day. Seconds may be left off, and they may have places. -/
def isTime (cs : List Char) : Bool :=
  match cs.splitOn ':' with
  | [h, m] => isUpTo 23 h && isUpTo 59 m
  | [h, m, s] =>
    isUpTo 23 h && isUpTo 59 m &&
      match s.splitOn '.' with
      | [s] => isUpTo 60 s
      | [s, places] => isUpTo 60 s && !places.isEmpty && places.all Char.isDigit
      | _ => false
  | _ => false

/-- Whether the text is a distance from universal time. -/
def isOffset (cs : List Char) : Bool :=
  match cs with
  | [c] => c = 'Z' || c = 'z'
  | sign :: cs =>
    (sign = '+' || sign = '-') &&
      match cs.splitOn ':' with
      | [h, m] => isUpTo 23 h && isUpTo 59 m
      | _ => false
  | [] => false

/-- Whether a character begins a distance from universal time. -/
def isOffsetMark (c : Char) : Bool := c = 'Z' || c = 'z' || c = '+' || c = '-'

/-- Whether the text is a time of day, with or without a distance from universal time. -/
def isOffsetTime (cs : List Char) : Bool :=
  match cs.dropWhile (!isOffsetMark ·) with
  | [] => isTime cs
  | offset => isTime (cs.takeWhile (!isOffsetMark ·)) && isOffset offset

/-- Whether the text is a day, a time of day, or both with a mark between them. -/
def isDate (cs : List Char) : Bool :=
  isTime cs || isDay cs ||
    (isDay (cs.take 10) &&
      match cs.drop 10 with
      | mark :: time => (mark = 'T' || mark = 't' || mark = ' ') && isOffsetTime time
      | [] => false)

/-! ## Bare values -/

/-- A value that is neither quoted nor bracketed. -/
def bare (cs : List Char) : Option Value :=
  match cs with
  | ['t', 'r', 'u', 'e'] => some (.bool true)
  | ['f', 'a', 'l', 's', 'e'] => some (.bool false)
  | _ => if isDate cs then some .date else number cs

end Purity.Toml
