-- A JSON text as a tree, as far as the text is JSON. A text may break off or break the grammar in
-- the middle; the tree then holds a flaw at that place, and whoever walks it in the order of the
-- text meets first whatever comes first, a misplaced value or the flaw.
import Purity.Json

namespace Purity.Json

/-- How a text fails to be JSON: it ends too early, or a character breaks the grammar. -/
inductive Fault
  | unfinished
  | malformed
  deriving DecidableEq, Repr

/-- A place where the text stops being JSON. What is wrong depends on who comes there: one that
takes the value that should stand there, one that passes over it unread, or one that looks for
something else, a name or an end. -/
structure Flaw where
  taking : Fault
  passing : Fault
  seeking : Fault
  deriving DecidableEq, Repr

/-- A flaw that is the same for everyone. -/
def Flaw.plain (f : Fault) : Flaw := ⟨f, f, f⟩

/-- A number: whole if it is written so and fits 64 bits, else the nearest double. -/
inductive Number
  | int (value : Int)
  | float (value : Double)
  deriving DecidableEq, Repr

mutual

/-- A value of the text. -/
inductive Node
  | null
  | bool (value : Bool)
  | number (value : Number)
  | string (value : String)
  | array (items : Items)
  | object (members : Members)
  /-- Well-formed, but no value can be taken from it: a number beyond all doubles, or a string
  with half of a surrogate pair. -/
  | untakable
  | flaw (flaw : Flaw)

/-- What follows in an array, up to its end or a flaw. -/
inductive Items
  | closed
  | flaw (flaw : Flaw)
  | cons (head : Node) (tail : Items)

/-- What follows in an object, up to its end or a flaw. A key that cannot be taken is `none`. -/
inductive Members
  | closed
  | flaw (flaw : Flaw)
  /-- A value where a key should stand. -/
  | keyless (found : Node)
  | cons (key : Option String) (value : Node) (tail : Members)

end

namespace Items

/-- The number of items before the end. -/
def length : Items → Nat
  | .closed => 0
  | .flaw _ => 0
  | .cons _ tail => tail.length + 1

end Items

mutual

/-- The first fault that taking the whole value meets. -/
def Node.takeFault : Node → Option Fault
  | .untakable => some .malformed
  | .flaw f => some f.taking
  | .array items => items.takeFault
  | .object members => members.takeFault
  | .null => none
  | .bool _ => none
  | .number _ => none
  | .string _ => none

/-- The first fault that taking all items meets. -/
def Items.takeFault : Items → Option Fault
  | .closed => none
  | .flaw f => some f.taking
  | .cons head tail => head.takeFault.or tail.takeFault

/-- The first fault that taking all members meets. -/
def Members.takeFault : Members → Option Fault
  | .closed => none
  | .flaw f => some f.taking
  | .keyless _ => some .malformed
  | .cons none _ _ => some .malformed
  | .cons (some _) value tail => value.takeFault.or tail.takeFault

end

mutual

/-- The first fault that passing over the value meets. -/
def Node.passFault : Node → Option Fault
  | .untakable => none
  | .flaw f => some f.passing
  | .array items => items.passFault
  | .object members => members.passFault
  | .null => none
  | .bool _ => none
  | .number _ => none
  | .string _ => none

/-- The first fault that passing over the items meets. -/
def Items.passFault : Items → Option Fault
  | .closed => none
  | .flaw f => some f.passing
  | .cons head tail => head.passFault.or tail.passFault

/-- The first fault that passing over the members meets. -/
def Members.passFault : Members → Option Fault
  | .closed => none
  | .flaw f => some f.passing
  | .keyless _ => some .malformed
  | .cons _ value tail => value.passFault.or tail.passFault

end

mutual

/-- The tree of a value, without flaws. -/
def toNode : Json → Node
  | .null => .null
  | .bool b => .bool b
  | .int i => .number (.int i)
  | .float x => .number (.float x)
  | .string s => .string s
  | .array items => .array (toItems items)
  | .object members => .object (toMembers members)

/-- The tree of an array's items. -/
def toItems : List Json → Items
  | [] => .closed
  | j :: js => .cons (toNode j) (toItems js)

/-- The tree of an object's members. -/
def toMembers : List (String × Json) → Members
  | [] => .closed
  | (k, j) :: ms => .cons (some k) (toNode j) (toMembers ms)

end

end Purity.Json
