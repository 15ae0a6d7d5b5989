-- Modules: source files with their line tables, and the functions declared in them.
import Purity.Expr
import Purity.Path

namespace Purity

/-- A parameter of a function. -/
structure Parameter where
  name : String
  type : Option String
  deriving DecidableEq, Repr

/-- A declared function. Without a body there is nothing to check. -/
structure Decl where
  id : String
  signature : Signature
  parameters : List Parameter
  body : Option Expr
  offset : UInt64

namespace Decl

/-- The plain name of the function. -/
def name (d : Decl) : String := d.signature.name

/-- Whether the declaration has a body. -/
def hasBody (d : Decl) : Bool := d.body.isSome

/-- A use of the parameter of that name, if the function has one. -/
def parameter? (d : Decl) (name : String) : Option Variable :=
  (d.parameters.find? (·.name = name)).map fun p => .ofParameter p.name d.id

end Decl

/-! ## Source files -/

/-- A place in a file. Lines and columns count from one. -/
structure Location where
  file : String
  line : UInt64
  column : UInt64
  deriving DecidableEq, Repr

namespace Location

/-- A place as messages show it. -/
def text (l : Location) : String :=
  "file://" ++ l.file ++ ":" ++ toString l.line.toNat ++ ":" ++ toString l.column.toNat

/-- Places compare by path, then line, then column. -/
def compare (a b : Location) : Ordering :=
  (Path.compare a.file b.file).then
    ((Ord.compare a.line b.line).then (Ord.compare a.column b.column))

end Location

/-- A source file: its path, the offsets at which its lines start, and its functions. -/
structure SourceFile where
  path : String
  lineStarts : List UInt64
  decls : List Decl

namespace SourceFile

/-- A file of one line without functions. -/
def ofPath (path : String) : SourceFile := ⟨path, [0], []⟩

/-- The byte offsets just behind each newline, in a text that starts at `pos`. -/
def newlines : Nat → List Char → List UInt64
  | _, [] => []
  | pos, c :: cs =>
    let after := pos + c.utf8Size
    if c = '\n' then UInt64.ofNat after :: newlines after cs else newlines after cs

/-- The line starts of a text. -/
def linesOf (text : String) : List UInt64 := 0 :: newlines 0 text.toList

/-- The file with the line starts of a text. -/
def withText (f : SourceFile) (text : String) : SourceFile := { f with lineStarts := linesOf text }

/-- Narrows a stretch of `size` line starts from `base` on down to one of them. If the one in the
middle is beyond the offset, the search goes on before it, else from it on. -/
def narrow (starts : List UInt64) (offset : UInt64) (base size : Nat) : Nat :=
  if size ≤ 1 then base
  else
    let half := size / 2
    let middle := base + half
    if offset < starts[middle]?.getD 0 then narrow starts offset base (size - half)
    else narrow starts offset middle (size - half)
termination_by size

/-- Looks for an offset among line starts: the place where it stands, or as an error the place
where it would have to be put in. The starts are taken to be in order. -/
def search (starts : List UInt64) (offset : UInt64) : Except Nat Nat :=
  let place := narrow starts offset 0 starts.length
  match starts[place]? with
  | none => .error 0
  | some start =>
    if start = offset then .ok place
    else .error (if start < offset then place + 1 else place)

/-- The line and column of an offset, from zero. With the starts in order, the line is the last that
starts at or before the offset, or the first if none does. -/
def lineAndColumn (f : SourceFile) (offset : UInt64) : Nat × UInt64 :=
  let line := match search f.lineStarts offset with
    | .ok place => place
    | .error place => place - 1
  let start := f.lineStarts[line]?.getD 0
  (line, if start ≤ offset then offset - start else 0)

/-- The place of an offset. Positions are 64 bit words. -/
def location (f : SourceFile) (offset : UInt64) : Location :=
  let (line, column) := f.lineAndColumn offset
  ⟨f.path, UInt64.ofNat line + 1, column + 1⟩

end SourceFile

/-! ## Modules -/

/-- Names a declaration of a module: which file, and which function in it. -/
structure Key where
  file : Nat
  index : Nat
  deriving DecidableEq, Repr

/-- A key as messages show it. -/
def Key.text (k : Key) : String := "#" ++ toString k.file ++ "." ++ toString k.index

/-- The files of one compilation. -/
structure Module where
  name : String
  files : List SourceFile

namespace Module

/-- The functions of a module with their files, file by file. -/
def functions (m : Module) : List (SourceFile × Decl) :=
  m.files.flatMap fun file => file.decls.map fun decl => (file, decl)

/-- The functions of a module under their keys, file by file. -/
def declarations (m : Module) : List (Key × SourceFile × Decl) :=
  m.files.zipIdx.flatMap fun (file, i) => file.decls.zipIdx.map fun (decl, j) => (⟨i, j⟩, file, decl)

/-- The number of functions. -/
def functionCount (m : Module) : Nat :=
  m.files.foldr (fun file count => file.decls.length + count) 0

end Module

end Purity
