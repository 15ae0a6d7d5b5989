-- Readers of single values out of the tree of a text.
import Purity.Json.Problem
import Purity.Json.Scan

namespace Purity.Json

/-- Where a value comes from. A value from the text is read as the text goes by. A held value has
been taken in whole before anything is read from it, because the order of members must not matter
there. A stored value is part of a larger value that is already known. -/
inductive Source
  | text
  | held
  | stored
  deriving DecidableEq, Repr

/-- The result of reading. -/
abbrev Reading (α : Type) := Except ReadError α

/-- A reader of values of type `α`. -/
abbrev Reader (α : Type) := Source → Node → Reading α

/-- Fails with a problem. -/
def refuse {α : Type} (p : Problem) : Reading α := .error (.problem p)

/-- Fails if there is a fault. -/
def orFault : Option Fault → Reading Unit
  | none => .ok ()
  | some f => .error (.fault f)

/-- Refuses a node that is not of the wanted kind. Inside an array or object nobody looks. -/
def Node.unwanted {α : Type} (node : Node) (wanted : Wanted) : Reading α :=
  match node with
  | .null => refuse (.wrongType .null wanted)
  | .bool b => refuse (.wrongType (.bool b) wanted)
  | .number n => refuse (.wrongType (.number n) wanted)
  | .string s => refuse (.wrongType (.string s) wanted)
  | .array _ => refuse (.wrongType .sequence wanted)
  | .object _ => refuse (.wrongType .map wanted)
  | .untakable => .error (.fault .malformed)
  | .flaw f => .error (.fault f.taking)

/-- A string. -/
def text : Reader String
  | _, .string s => .ok s
  | _, n => n.unwanted .text

/-- A path, which is any string. -/
def path : Reader String
  | _, .string s => .ok s
  | _, n => n.unwanted .path

/-- A truth value. -/
def truth : Reader Bool
  | _, .bool b => .ok b
  | _, n => n.unwanted .truth

/-- A whole number from zero on that fits 64 bits. -/
def size : Reader Nat
  | _, .number (.int i) =>
    if i < 0 then refuse (.wrongValue (.number (.int i)) .size) else .ok i.toNat
  | _, n => n.unwanted .size

/-- A 64 bit word. -/
def word : Reader UInt64 := fun src n => (size src n).map UInt64.ofNat

/-- Null, or a value. -/
def nullable {α : Type} (read : Reader α) : Reader (Option α)
  | _, .null => .ok none
  | src, n => (read src n).map some

/-- The items of an array, each read as it comes. -/
def Items.readAll {α : Type} (read : Node → Reading α) : Items → Reading (List α)
  | .closed => .ok []
  | .flaw f => .error (.fault f.taking)
  | .cons head tail => do
    let a ← read head
    let as ← tail.readAll read
    return a :: as

/-- An array of values. -/
def list {α : Type} (read : Reader α) : Reader (List α)
  | src, .array items => items.readAll (read src)
  | _, n => n.unwanted .sequence

/-- The members of an object as a fold over their keys and values. -/
def Members.fold {σ : Type} (step : σ → String → Node → Reading σ) : Members → σ → Reading σ
  | .closed, s => .ok s
  | .flaw f, _ => .error (.fault f.taking)
  | .keyless _, _ => .error (.fault .malformed)
  | .cons none _ _, _ => .error (.fault .malformed)
  | .cons (some key) value tail, s => do
    let s ← step s key value
    tail.fold step s

/-- Reads a whole text: one value, and nothing but space after it. -/
def parse {α : Type} (read : Reader α) (s : String) : Reading α := do
  let doc := Document.scan s
  let a ← read .text doc.root
  if doc.trailing then .error (.fault .malformed) else .ok a

end Purity.Json
