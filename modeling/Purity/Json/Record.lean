-- Records: objects with known fields, or arrays of the fields in order.
import Purity.Json.Read

namespace Purity.Json

/-- A field of a record. Without a default it must be there. -/
structure Field (α : Type) where
  name : String
  read : Reader α
  default? : Option α

/-- A field that must be there. -/
def Field.required {α : Type} (name : String) (read : Reader α) : Field α := ⟨name, read, none⟩

/-- A field that may be left off. -/
def Field.defaulted {α : Type} (name : String) (read : Reader α) (a : α) : Field α :=
  ⟨name, read, some a⟩

/-- A field that may be left off or null. -/
def Field.optional {α : Type} (name : String) (read : Reader α) : Field (Option α) :=
  ⟨name, nullable read, some none⟩

/-- The fields of a record in order, with the types of their values. -/
inductive Fields : List Type → Type 1
  | nil : Fields []
  | cons {α : Type} {αs : List Type} (field : Field α) (rest : Fields αs) : Fields (α :: αs)

/-- A value for each field. -/
def Row : List Type → Type
  | [] => Unit
  | α :: αs => α × Row αs

/-- The values of the fields met so far. -/
def Slots : List Type → Type
  | [] => Unit
  | α :: αs => Option α × Slots αs

namespace Fields

/-- The number of fields. -/
def count {αs : List Type} : Fields αs → Nat
  | .nil => 0
  | .cons _ rest => rest.count + 1

/-- No field met yet. -/
def empty {αs : List Type} : Fields αs → Slots αs
  | .nil => ()
  | .cons _ rest => (none, rest.empty)

/-- Reads the value of a field that is met under its name; `none` if no field has the name. No
field is met twice. -/
def put {αs : List Type} (fields : Fields αs) (src : Source) (key : String) (value : Node) :
    Slots αs → Reading (Option (Slots αs)) :=
  match fields with
  | .nil => fun _ => .ok none
  | .cons field rest => fun slots =>
    if key = field.name then
      match slots.1 with
      | some _ => refuse (.repeated field.name)
      | none => (field.read src value).map fun a => some (some a, slots.2)
    else (rest.put src key value slots.2).map (·.map fun more => (slots.1, more))

/-- The values of all fields, once the object is closed. -/
def complete {αs : List Type} : Fields αs → Slots αs → Reading (Row αs)
  | .nil, _ => .ok ()
  | .cons field rest, slots => do
    let a ← match slots.1.or field.default? with
      | some a => .ok a
      | none => refuse (.missing field.name)
    let row ← rest.complete slots.2
    return (a, row)

/-- Reads the fields among the members of an object. What to do about other members is up to
`aside`. -/
def ofMembers {αs : List Type} (fields : Fields αs) (src : Source) (aside : Node → Option Fault)
    (members : Members) : Reading (Row αs) := do
  let slots ← members.fold (fun slots key value => do
    match ← fields.put src key value slots with
    | some slots => .ok slots
    | none => (orFault (aside value)).map fun _ => slots) fields.empty
  fields.complete slots

/-- Reads the fields from the front of an array, `seen` items in. Fields with a default may be
left off at its end. -/
def ofItems {αs : List Type} (fields : Fields αs) (src : Source) (wanted : Wanted) (seen : Nat)
    (items : Items) : Reading (Row αs × Items) :=
  match fields, items with
  | .nil, items => .ok ((), items)
  | .cons field rest, .cons head tail => do
    let a ← field.read src head
    let (row, left) ← rest.ofItems src wanted (seen + 1) tail
    return ((a, row), left)
  | .cons _ _, .flaw f => .error (.fault f.taking)
  | .cons field rest, .closed =>
    match field.default? with
    | none => refuse (.wrongLength seen wanted)
    | some a => do
      let (row, left) ← rest.ofItems src wanted (seen + 1) .closed
      return ((a, row), left)

end Fields

/-- Checks that an array ends after the fields of a record. -/
def Items.ended (src : Source) (total count : Nat) : Items → Reading Unit
  | .closed => .ok ()
  | .flaw f => .error (.fault f.seeking)
  | .cons _ _ =>
    match src with
    | .text => .error (.fault .malformed)
    | _ => refuse (.wrongLength total (.items count))

/-- What a record does with members that are none of its fields: from the text it passes over
them, elsewhere they are known to be sound. -/
def passOver : Source → Node → Option Fault
  | .text, node => node.passFault
  | .held, _ => none
  | .stored, _ => none

/-- What is done with members that are kept for later: from the text they are taken in whole,
elsewhere they are known to be sound. -/
def takeIn : Source → Node → Option Fault
  | .text, node => node.takeFault
  | .held, _ => none
  | .stored, _ => none

/-- Reads a record from an object or an array. -/
def record {α : Type} {αs : List Type} (name : String) (fields : Fields αs) (build : Row αs → α) :
    Reader α
  | src, .object members => (fields.ofMembers src (passOver src) members).map build
  | src, .array items => do
    let (row, left) ← fields.ofItems src (.fields name fields.count) 0 items
    left.ended src items.length fields.count
    return build row
  | _, n => n.unwanted (.record name)

end Purity.Json
