-- From a text to its tree. Every scanner gives back what it found and the rest of the text.
import Purity.Json.Node

namespace Purity.Json

/-- The four characters that may stand between tokens. -/
def isSpace (c : Char) : Bool := c = ' ' || c = '\t' || c = '\n' || c = '\r'

/-- The text after the spaces at its front. -/
def skipSpace (cs : List Char) : List Char := cs.dropWhile isSpace

/-! ## Strings -/

/-- What stands in a string: a character, or a sixteen bit unit written by its number. -/
inductive Piece
  | char (c : Char)
  | unit (n : Nat)

/-- Whether a unit is the first half of a pair. -/
def isHigh (n : Nat) : Bool := 0xD800 ≤ n && n < 0xDC00

/-- Whether a unit is the second half of a pair. -/
def isLow (n : Nat) : Bool := 0xDC00 ≤ n && n < 0xE000

/-- The text of pieces given last first, in front of `text`. A pair of halves is one character;
`none` if a half stands alone. -/
def joinPieces : List Piece → List Char → Option (List Char)
  | [], text => some text
  | .char c :: ps, text => joinPieces ps (c :: text)
  | .unit l :: .unit h :: ps, text =>
    if isLow l then
      if isHigh h then
        joinPieces ps (Char.ofNat (0x10000 + (h - 0xD800) * 0x400 + (l - 0xDC00)) :: text)
      else none
    else if isHigh l then none
    else joinPieces (.unit h :: ps) (Char.ofNat l :: text)
  | .unit n :: ps, text =>
    if isHigh n || isLow n then none else joinPieces ps (Char.ofNat n :: text)

/-- The value of a hexadecimal digit. -/
def hexDigit? (c : Char) : Option Nat :=
  if '0' ≤ c ∧ c ≤ '9' then some (c.toNat - 48)
  else if 'a' ≤ c ∧ c ≤ 'f' then some (c.toNat - 87)
  else if 'A' ≤ c ∧ c ≤ 'F' then some (c.toNat - 55)
  else none

/-- The unit of four hexadecimal digits. -/
def unit? (a b c d : Char) : Option Nat := do
  some ((← hexDigit? a) * 4096 + (← hexDigit? b) * 256 + (← hexDigit? c) * 16 + (← hexDigit? d))

/-- The character of an escape by a single letter. -/
def escape? (c : Char) : Option Char :=
  if c = '"' then some '"'
  else if c = '\\' then some '\\'
  else if c = '/' then some '/'
  else if c = 'b' then some '\x08'
  else if c = 'f' then some '\x0c'
  else if c = 'n' then some '\n'
  else if c = 'r' then some '\r'
  else if c = 't' then some '\t'
  else none

/-- What is wrong with a unit that is not four hexadecimal digits: with fewer than four bytes
left the text has ended. -/
def unitFault (cs : List Char) : Fault :=
  if (String.ofList (cs.take 4)).utf8ByteSize < 4 then .unfinished else .malformed

/-- A string from behind its opening quote: the pieces, last first, and the rest after the
closing quote or the fault. -/
def scanPieces : List Piece → List Char → List Piece × Except Fault (List Char)
  | acc, [] => (acc, .error .unfinished)
  | acc, '"' :: rest => (acc, .ok rest)
  | acc, '\\' :: [] => (acc, .error .unfinished)
  | acc, '\\' :: 'u' :: a :: b :: c :: d :: rest =>
    match unit? a b c d with
    | some n => scanPieces (.unit n :: acc) rest
    | none => (acc, .error (unitFault (a :: b :: c :: d :: rest)))
  | acc, '\\' :: e :: rest =>
    if e = 'u' then (acc, .error (unitFault rest))
    else
      match escape? e with
      | some c => scanPieces (.char c :: acc) rest
      | none => (acc, .error .malformed)
  | acc, c :: rest =>
    if c.toNat < 0x20 then (acc, .error .malformed) else scanPieces (.char c :: acc) rest

/-- Pieces, last first, without a first half of a pair at their end, which the text may still
have completed. -/
def settled : List Piece → List Piece
  | .unit n :: ps => if isHigh n then ps else .unit n :: ps
  | ps => ps

/-- A string from behind its opening quote: its text if it has one, or the flaw. -/
def scanString (cs : List Char) : Except Flaw (Option String × List Char) :=
  match scanPieces [] cs with
  | (acc, .ok rest) => .ok ((joinPieces acc []).map String.ofList, rest)
  | (acc, .error f) =>
    let taking := if (joinPieces (settled acc) []).isNone then .malformed else f
    .error ⟨taking, f, taking⟩

/-! ## Numbers and words -/

/-- The number written by an integer part, places and an exponent. -/
def numberOf (negative : Bool) (whole places : List Char) (exponent : Option Int) : Node :=
  let digits := Nat.ofDigitChars 10 (whole ++ places) 0
  let rounded (e : Int) : Node :=
    match Double.ofDecimal? negative digits e with
    | some x => .number (.float x)
    | none => .untakable
  match places, exponent with
  | [], none =>
    if !negative && digits < UInt64.size then .number (.int digits)
    else if negative && 0 < digits && digits ≤ 0x8000000000000000 then .number (.int (-digits))
    else rounded 0
  | _, e => rounded (e.getD 0 - places.length)

/-- The flaw of a number that lacks a digit before `rest`. -/
def numberFlaw (rest : List Char) : Node × List Char :=
  (.flaw ⟨if rest.isEmpty then .unfinished else .malformed, .malformed, .malformed⟩, [])

/-- The part of a number from its exponent on. -/
def scanExponent (negative : Bool) (whole places : List Char) (cs : List Char) : Node × List Char :=
  let signed (minus : Bool) (cs : List Char) : Node × List Char :=
    match cs.takeWhile Char.isDigit with
    | [] => numberFlaw cs
    | ds =>
      let e : Int := Nat.ofDigitChars 10 ds 0
      (numberOf negative whole places (some (if minus then -e else e)), cs.dropWhile Char.isDigit)
  let marked (cs : List Char) : Node × List Char :=
    match cs with
    | '+' :: cs => signed false cs
    | '-' :: cs => signed true cs
    | cs => signed false cs
  match cs with
  | 'e' :: cs => marked cs
  | 'E' :: cs => marked cs
  | cs => (numberOf negative whole places none, cs)

/-- The part of a number after its integer part. -/
def scanPlaces (negative : Bool) (whole : List Char) (cs : List Char) : Node × List Char :=
  match cs with
  | '.' :: cs =>
    match cs.takeWhile Char.isDigit with
    | [] => numberFlaw cs
    | places => scanExponent negative whole places (cs.dropWhile Char.isDigit)
  | cs => scanExponent negative whole [] cs

/-- A number from behind its sign. No zero stands in front of another digit. -/
def scanNumber (negative : Bool) (cs : List Char) : Node × List Char :=
  match cs.takeWhile Char.isDigit with
  | [] => numberFlaw cs
  | '0' :: _ :: _ => (.flaw ⟨.malformed, .malformed, .malformed⟩, [])
  | whole => scanPlaces negative whole (cs.dropWhile Char.isDigit)

/-- The rest of a word that stands for `node`. -/
def scanWord (node : Node) : List Char → List Char → Node × List Char
  | [], cs => (node, cs)
  | _ :: _, [] => (.flaw ⟨.unfinished, .unfinished, .malformed⟩, [])
  | w :: ws, c :: cs =>
    if w = c then scanWord node ws cs else (.flaw (.plain .malformed), [])

/-! ## Values -/

mutual

/-- A value, after any spaces. -/
def scanValue : Nat → List Char → Node × List Char
  | 0, _ => (.flaw (.plain .malformed), [])
  | fuel + 1, cs =>
    match skipSpace cs with
    | [] => (.flaw (.plain .unfinished), [])
    | 'n' :: cs => scanWord .null ['u', 'l', 'l'] cs
    | 't' :: cs => scanWord (.bool true) ['r', 'u', 'e'] cs
    | 'f' :: cs => scanWord (.bool false) ['a', 'l', 's', 'e'] cs
    | '"' :: cs =>
      match scanString cs with
      | .ok (some s, rest) => (.string s, rest)
      | .ok (none, rest) => (.untakable, rest)
      | .error f => (.flaw f, [])
    | '[' :: cs =>
      match skipSpace cs with
      | ']' :: rest => (.array .closed, rest)
      | cs =>
        let (items, rest) := scanItems fuel cs
        (.array items, rest)
    | '{' :: cs =>
      match skipSpace cs with
      | '}' :: rest => (.object .closed, rest)
      | cs =>
        let (members, rest) := scanMembers fuel cs
        (.object members, rest)
    | '-' :: cs => scanNumber true cs
    | c :: cs => if c.isDigit then scanNumber false (c :: cs) else (.flaw (.plain .malformed), [])

/-- The items of an array from where the next one should stand. -/
def scanItems : Nat → List Char → Items × List Char
  | 0, _ => (.flaw (.plain .malformed), [])
  | fuel + 1, cs =>
    match cs with
    | [] => (.flaw (.plain .unfinished), [])
    | cs =>
      let (head, cs) := scanValue fuel cs
      match skipSpace cs with
      | ']' :: rest => (.cons head .closed, rest)
      | ',' :: cs =>
        match skipSpace cs with
        | [] => (.cons head (.flaw ⟨.unfinished, .unfinished, .malformed⟩), [])
        | ']' :: _ => (.cons head (.flaw (.plain .malformed)), [])
        | cs =>
          let (tail, rest) := scanItems fuel cs
          (.cons head tail, rest)
      | [] => (.cons head (.flaw (.plain .unfinished)), [])
      | _ => (.cons head (.flaw (.plain .malformed)), [])

/-- The members of an object from where the next key should stand. -/
def scanMembers : Nat → List Char → Members × List Char
  | 0, _ => (.flaw (.plain .malformed), [])
  | fuel + 1, cs =>
    match cs with
    | [] => (.flaw (.plain .unfinished), [])
    | '"' :: cs =>
      match scanString cs with
      | .error f => (.flaw { f with seeking := .malformed }, [])
      | .ok (key, cs) =>
        match skipSpace cs with
        | [] => (.cons key (.flaw (.plain .unfinished)) .closed, [])
        | ':' :: cs =>
          let (value, cs) := scanValue fuel cs
          match skipSpace cs with
          | '}' :: rest => (.cons key value .closed, rest)
          | ',' :: cs =>
            match skipSpace cs with
            | [] => (.cons key value (.flaw ⟨.unfinished, .unfinished, .malformed⟩), [])
            | cs =>
              let (tail, rest) := scanMembers fuel cs
              (.cons key value tail, rest)
          | [] => (.cons key value (.flaw (.plain .unfinished)), [])
          | _ => (.cons key value (.flaw (.plain .malformed)), [])
        | _ => (.cons key (.flaw (.plain .malformed)) .closed, [])
    | cs => (.keyless (scanValue fuel cs).1, [])

end

/-- A text as a tree, and whether something other than space follows the value. -/
structure Document where
  root : Node
  trailing : Bool

/-- Scans a text. Each step takes a character or goes one step deeper, so the fuel suffices. -/
def Document.scan (text : String) : Document :=
  let cs := text.toList
  let (root, rest) := scanValue (2 * cs.length + 2) cs
  ⟨root, !(skipSpace rest).isEmpty⟩

end Purity.Json
