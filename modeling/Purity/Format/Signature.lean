-- Signatures and marks in module descriptions.
import Purity.Json.Variant
import Purity.Level
import Purity.Signature

namespace Purity

open Json

/-- A level by its word. -/
def Level.read : Reader Level := choice (Level.all.map fun l => (l.key, l))

/-- A level as its word. -/
def Level.toJson (l : Level) : Json := .string l.key

/-- A kind of type by its word. -/
def OwnerKind.read : Reader OwnerKind := choice (OwnerKind.all.map fun k => (k.key, k))

/-- The fields of an owner. -/
def Owner.fields : Fields [String, OwnerKind] :=
  .cons (.required "name" text) <|
  .cons (.defaulted "kind" OwnerKind.read .regular) .nil

/-- An owner. -/
def Owner.read : Reader Owner :=
  record "struct OwnerType" fields fun (name, kind, ()) => ⟨name, kind⟩

/-- An owner as an object. -/
def Owner.toJson (o : Owner) : Json :=
  .object [("name", .string o.name), ("kind", .string o.kind.key)]

/-- The value of an argument, taken in whole first. -/
def MarkValue.read : Reader MarkValue := fun src node => do
  orFault (takeIn src node)
  match node with
  | .bool b => .ok (.flag b)
  | .string s => .ok (.text s)
  | _ => refuse (.noVariant "AnnotationValue")

/-- The value of an argument as it is. -/
def MarkValue.toJson : MarkValue → Json
  | .flag b => .bool b
  | .text s => .string s

/-- The arguments of a mark. The last one under a key stays. -/
def Arguments.read : Reader Arguments
  | src, .object members =>
    members.fold (fun arguments key value =>
      (MarkValue.read src value).map (arguments.insert key)) Arguments.empty
  | _, n => n.unwanted .map

/-- The arguments of a mark in order. -/
def Arguments.toJson (a : Arguments) : Json :=
  .object (a.entries.map fun (key, value) => (key, value.toJson))

/-- The fields of a mark. -/
def Mark.fields : Fields [String, Arguments] :=
  .cons (.required "name" text) <|
  .cons (.defaulted "arguments" Arguments.read .empty) .nil

/-- A mark. -/
def Mark.read : Reader Mark :=
  record "struct Annotation" fields fun (name, arguments, ()) => ⟨name, arguments⟩

/-- A mark as an object. -/
def Mark.toJson (m : Mark) : Json :=
  .object [("name", .string m.name), ("arguments", m.arguments.toJson)]

/-- The fields of a signature. -/
def Signature.fields : Fields [String, Option Owner, List Mark] :=
  .cons (.required "name" text) <|
  .cons (.optional "owner" Owner.read) <|
  .cons (.defaulted "annotations" (list Mark.read) []) .nil

/-- A signature. -/
def Signature.read : Reader Signature :=
  record "struct FunctionSignature" fields fun (name, owner, marks, ()) => ⟨name, owner, marks⟩

/-- The members of a signature. No owner and no marks are left out. -/
def Signature.members (s : Signature) : List (String × Json) :=
  ("name", .string s.name) ::
    ((s.owner.map fun o => ("owner", o.toJson)).toList ++
      if s.marks.isEmpty then [] else [("annotations", .array (s.marks.map Mark.toJson))])

/-- A signature as an object. -/
def Signature.toJson (s : Signature) : Json := .object s.members

end Purity
