-- JSON values and their two written forms: compact, and indented by two blanks.
import Purity.Double.Shortest
import Purity.Text.Quoted

namespace Purity

/-- A JSON value. Members keep the order in which they are written. -/
inductive Json
  | null
  | bool (value : Bool)
  | int (value : Int)
  | float (value : Double)
  | string (value : String)
  | array (items : List Json)
  | object (members : List (String × Json))
  deriving Inhabited

namespace Json

/-- One character inside a string. Only quotes, backslashes and controls are escaped. -/
def escapeChar (c : Char) : List Char :=
  if c = '"' then ['\\', '"']
  else if c = '\\' then ['\\', '\\']
  else if c = '\x08' then ['\\', 'b']
  else if c = '\x0c' then ['\\', 'f']
  else if c = '\n' then ['\\', 'n']
  else if c = '\r' then ['\\', 'r']
  else if c = '\t' then ['\\', 't']
  else if c.toNat < 0x10 then ['\\', 'u', '0', '0', '0'] ++ Text.hex c.toNat
  else if c.toNat < 0x20 then ['\\', 'u', '0', '0'] ++ Text.hex c.toNat
  else [c]

/-- Writes a string with its quotes in front of `rest`. -/
def writeString (s : String) (rest : List Char) : List Char :=
  '"' :: (s.toList.flatMap escapeChar ++ '"' :: rest)

/-- Writes a whole number in front of `rest`. -/
def writeInt (i : Int) (rest : List Char) : List Char :=
  if i < 0 then '-' :: (Nat.toDigits 10 i.natAbs ++ rest) else Nat.toDigits 10 i.natAbs ++ rest

mutual

/-- Writes a value in front of `rest`, without blanks. -/
def write : Json → List Char → List Char
  | .null, rest => 'n' :: 'u' :: 'l' :: 'l' :: rest
  | .bool true, rest => 't' :: 'r' :: 'u' :: 'e' :: rest
  | .bool false, rest => 'f' :: 'a' :: 'l' :: 's' :: 'e' :: rest
  | .int i, rest => writeInt i rest
  | .float x, rest => x.text ++ rest
  | .string s, rest => writeString s rest
  | .array items, rest => '[' :: writeItems items (']' :: rest)
  | .object members, rest => '{' :: writeMembers members ('}' :: rest)

/-- Writes items with commas between them. -/
def writeItems : List Json → List Char → List Char
  | [], rest => rest
  | [j], rest => write j rest
  | j :: j' :: js, rest => write j (',' :: writeItems (j' :: js) rest)

/-- Writes members with commas between them. -/
def writeMembers : List (String × Json) → List Char → List Char
  | [], rest => rest
  | [(k, j)], rest => writeString k (':' :: write j rest)
  | (k, j) :: m :: ms, rest => writeString k (':' :: write j (',' :: writeMembers (m :: ms) rest))

end

/-- The compact form of a value. -/
def compact (j : Json) : String := String.ofList (j.write [])

/-- A new line, `depth` steps of two blanks in. -/
def indent (depth : Nat) (rest : List Char) : List Char :=
  '\n' :: (List.replicate (2 * depth) ' ' ++ rest)

mutual

/-- Writes a value in front of `rest`, each item and member on a line of its own. -/
def writePretty : Json → Nat → List Char → List Char
  | .array [], _, rest => '[' :: ']' :: rest
  | .array (j :: js), depth, rest =>
    '[' :: indent (depth + 1) (writePrettyItems (j :: js) depth rest)
  | .object [], _, rest => '{' :: '}' :: rest
  | .object (m :: ms), depth, rest =>
    '{' :: indent (depth + 1) (writePrettyMembers (m :: ms) depth rest)
  | .null, _, rest => write .null rest
  | .bool b, _, rest => write (.bool b) rest
  | .int i, _, rest => write (.int i) rest
  | .float x, _, rest => write (.float x) rest
  | .string s, _, rest => write (.string s) rest

/-- Writes the items of an array and its end. -/
def writePrettyItems : List Json → Nat → List Char → List Char
  | [], depth, rest => indent depth (']' :: rest)
  | [j], depth, rest => writePretty j (depth + 1) (indent depth (']' :: rest))
  | j :: j' :: js, depth, rest =>
    writePretty j (depth + 1) (',' :: indent (depth + 1) (writePrettyItems (j' :: js) depth rest))

/-- Writes the members of an object and its end. -/
def writePrettyMembers : List (String × Json) → Nat → List Char → List Char
  | [], depth, rest => indent depth ('}' :: rest)
  | [(k, j)], depth, rest =>
    writeString k (':' :: ' ' :: writePretty j (depth + 1) (indent depth ('}' :: rest)))
  | (k, j) :: m :: ms, depth, rest =>
    writeString k (':' :: ' ' :: writePretty j (depth + 1)
      (',' :: indent (depth + 1) (writePrettyMembers (m :: ms) depth rest)))

end

/-- The indented form of a value. -/
def pretty (j : Json) : String := String.ofList (j.writePretty 0 [])

/-- A value or null. -/
def orNull {α : Type} (f : α → Json) : Option α → Json
  | none => .null
  | some a => f a

/-- The strings of a list as an array. -/
def strings (texts : List String) : Json := .array (texts.map .string)

/-- A natural number. -/
def nat (n : Nat) : Json := .int n

end Json

end Purity
