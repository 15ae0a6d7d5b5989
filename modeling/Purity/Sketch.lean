-- Functions and modules put together by hand. Everything stands at the start of the source until
-- it is moved.
import Purity.Module
import Purity.Table

namespace Purity

/-! ## Declarations -/

namespace Decl

/-- A function without a body, named by the last part of its id. -/
def ofId (id : String) : Decl := ⟨id, .ofName (simpleName id), [], none, 0⟩

/-- The declaration with one more mark. -/
def mark (m : Mark) (d : Decl) : Decl :=
  { d with signature := { d.signature with marks := d.signature.marks ++ [m] } }

/-- The declaration as a member of a type. -/
def memberOf (owner : Owner) (d : Decl) : Decl :=
  { d with signature := { d.signature with owner := some owner } }

/-- The declaration under another plain name. -/
def rename (name : String) (d : Decl) : Decl := { d with signature := { d.signature with name } }

/-- The declaration with one more parameter. -/
def addParameter (name : String) (d : Decl) : Decl :=
  { d with parameters := d.parameters ++ [⟨name, none⟩] }

/-- The declaration with a body. -/
def withBody (body : Expr) (d : Decl) : Decl := { d with body := some body }

/-- The declaration at another place. -/
def moveTo (offset : UInt64) (d : Decl) : Decl := { d with offset }

end Decl

/-! ## Callees -/

/-- A member of a class, without marks. -/
def Signature.ofMember (name owner : String) : Signature := ⟨name, some ⟨owner, .regular⟩, []⟩

/-- A free function with a pure contract. -/
def Signature.ofPure (name : String) : Signature := ⟨name, none, [.contractPure]⟩

/-- A free function with a readonly contract. -/
def Signature.ofReadonly (name : String) : Signature := ⟨name, none, [.contractReadonly]⟩

/-! ## Modules -/

/-- A module of one file with the given text and functions. -/
def Module.ofSource (path text : String) (decls : List Decl) : Module :=
  ⟨"test", [{ (SourceFile.ofPath path).withText text with decls }]⟩

end Purity
