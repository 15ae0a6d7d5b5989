-- Values of types with several variants: plain names, and records that carry a tag.
import Purity.Json.Record

namespace Purity.Json

/-- The value under a name. -/
def byName {α : Type} (variants : List (String × α)) (name : String) : Reading α :=
  match variants.lookup name with
  | some a => .ok a
  | none => refuse (.unknownVariant name (variants.map Prod.fst))

/-- The name of a variant. -/
def variantName {α : Type} (variants : List (String × α)) : Node → Reading α
  | .string s => byName variants s
  | n => n.unwanted .variantName

/-- Null; a held empty object counts as null too. -/
def unit : Reader Unit
  | _, .null => .ok ()
  | .held, .object .closed => .ok ()
  | _, n => n.unwanted .unit

/-- One of some names. An object with the name as its only key and null as the value will do. From
the text only a string or an object is looked at, and a quote must begin the key. -/
def choice {α : Type} (variants : List (String × α)) : Reader α
  | _, .string s => byName variants s
  | .text, .object members =>
    match members with
    | .closed => .error (.fault .malformed)
    | .flaw f => .error (.fault f.taking)
    | .keyless _ => .error (.fault .malformed)
    | .cons none _ _ => .error (.fault .malformed)
    | .cons (some key) value tail => do
      let a ← byName variants key
      unit .text value
      match tail with
      | .closed => .ok a
      | .flaw f => .error (.fault f.seeking)
      | _ => .error (.fault .malformed)
  | .text, .flaw f => .error (.fault f.seeking)
  | .text, _ => .error (.fault .malformed)
  | src, .object (.cons (some key) value .closed) => do
    let a ← byName variants key
    unit src value
    return a
  | _, .object _ => refuse (.wrongValue .map .singleKey)
  | _, n => n.unwanted .choice

/-- Reads a value whose variant is named by the member `tag` of an object, or by the first item of
an array. The name is read when it is met; all else is taken in first and read by the variant's
own reader afterwards. -/
def tagged {α : Type} (type tag : String) (variants : List (String × Reader α)) : Reader α
  | src, .object members => do
    let found ← members.fold (fun (found : Option (Reader α)) key value =>
      if key = tag then
        match found with
        | some _ => refuse (.repeated tag)
        | none => (variantName variants value).map some
      else (orFault (takeIn src value)).map fun _ => found) none
    match found with
    | none => refuse (.missing tag)
    | some read => read .held (.object members)
  | _, .array .closed => refuse (.missing tag)
  | _, .array (.flaw f) => .error (.fault f.taking)
  | src, .array (.cons head tail) => do
    let read ← variantName variants head
    orFault (takeIn src (.array tail))
    read .held (.array tail)
  | _, n => n.unwanted (.tagged type)

end Purity.Json
