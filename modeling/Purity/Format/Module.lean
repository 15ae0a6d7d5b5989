-- Module descriptions.
import Purity.Failure
import Purity.Format.Expr
import Purity.Log
import Purity.Module

namespace Purity

open Json

/-- The fields of a parameter. -/
def Parameter.fields : Fields [String, Option String] :=
  .cons (.required "name" text) <|
  .cons (.optional "type_name" text) .nil

/-- A parameter. -/
def Parameter.read : Reader Parameter :=
  record "struct Parameter" fields fun (name, type, ()) => ⟨name, type⟩

/-- A parameter as an object. -/
def Parameter.toJson (p : Parameter) : Json :=
  .object (("name", .string p.name) :: (p.type.map fun t => ("type_name", Json.string t)).toList)

/-- The fields that a declaration has besides those of its signature. -/
def Decl.fields : Fields [String, List Parameter, Option Expr, UInt64] :=
  .cons (.required "id" text) <|
  .cons (.defaulted "parameters" (list Parameter.read) []) <|
  .cons (.optional "body" Expr.read) <|
  .cons (.defaulted "offset" word 0) .nil

/-- A declaration. Its own fields are read as they come; those of the signature stand beside them
and are read once the object is closed. -/
def Decl.read : Reader Decl
  | src, .object members => do
    let (id, parameters, body, offset, ()) ← fields.ofMembers src (takeIn src) members
    let signature ← Signature.read .held (.object members)
    return ⟨id, signature, parameters, body, offset⟩
  | _, n => n.unwanted (.record "struct FunctionDecl")

/-- A declaration as an object. -/
def Decl.toJson (d : Decl) : Json :=
  .object (("id", .string d.id) :: (d.signature.members ++
    ("parameters", .array (d.parameters.map Parameter.toJson)) ::
      ((d.body.map fun e => ("body", e.toJson)).toList ++ [("offset", .nat d.offset.toNat)])))

/-- The fields of a source file. -/
def SourceFile.fields : Fields [String, List UInt64, List Decl] :=
  .cons (.required "path" Json.path) <|
  .cons (.defaulted "line_starts" (list word) [0]) <|
  .cons (.defaulted "functions" (list Decl.read) []) .nil

/-- A source file. -/
def SourceFile.read : Reader SourceFile :=
  record "struct SourceFile" fields fun (path, lineStarts, decls, ()) => ⟨path, lineStarts, decls⟩

/-- A source file as an object. -/
def SourceFile.toJson (f : SourceFile) : Json :=
  .object [("path", .string f.path),
    ("line_starts", .array (f.lineStarts.map fun n => .nat n.toNat)),
    ("functions", .array (f.decls.map Decl.toJson))]

/-- The fields of a module. -/
def Module.fields : Fields [String, List SourceFile] :=
  .cons (.defaulted "name" text "") <|
  .cons (.defaulted "files" (list SourceFile.read) []) .nil

/-- A module. -/
def Module.read : Reader Module :=
  record "struct Module" fields fun (name, files, ()) => ⟨name, files⟩

/-- A module as an object. -/
def Module.toJson (m : Module) : Json :=
  .object [("name", .string m.name), ("files", .array (m.files.map SourceFile.toJson))]

/-- Reads the text of a module that stands under `path`. -/
def Module.parse (path text : String) : Except Failure Module :=
  (Json.parse Module.read text).mapError (.badModule path)

/-- What is noted of a module that was read. -/
def Module.loadNote (m : Module) (path : String) : Note :=
  ⟨.debug, "Loaded module " ++ m.name ++ " with " ++ toString m.functionCount ++ " functions from " ++
    path⟩

end Purity
