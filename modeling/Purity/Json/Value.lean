-- A text read as a JSON value of any form.
import Purity.Entries
import Purity.Json.Read

namespace Purity.Json

mutual

/-- Any value. Its objects have each key once, with the last value under it, in order. -/
def Node.toJson : Node → Reading Json
  | .null => .ok .null
  | .bool b => .ok (.bool b)
  | .number (.int i) => .ok (.int i)
  | .number (.float x) => .ok (.float x)
  | .string s => .ok (.string s)
  | .array items => do return .array (← items.toJsons)
  | .object members => do return .object (← members.toEntries [])
  | .untakable => .error (.fault .malformed)
  | .flaw f => .error (.fault f.taking)

/-- The values of items. -/
def Items.toJsons : Items → Reading (List Json)
  | .closed => .ok []
  | .flaw f => .error (.fault f.taking)
  | .cons head tail => do
    let j ← head.toJson
    let js ← tail.toJsons
    return j :: js

/-- The values of members under their keys, put into those that are there. -/
def Members.toEntries (entries : List (String × Json)) : Members → Reading (List (String × Json))
  | .closed => .ok entries
  | .flaw f => .error (.fault f.taking)
  | .keyless _ => .error (.fault .malformed)
  | .cons none _ _ => .error (.fault .malformed)
  | .cons (some key) value tail => do
    let j ← value.toJson
    tail.toEntries (Entries.insert key j entries)

end

/-- A reader of any value. -/
def value : Reader Json := fun _ node => node.toJson

/-- The value under a key of an object. -/
def get? (j : Json) (key : String) : Option Json :=
  match j with
  | .object members => members.lookup key
  | _ => none

end Purity.Json
