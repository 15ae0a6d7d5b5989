-- Paths as text: their components, their order, and the directory above one.

namespace Purity

/-- A step of a path. -/
inductive Component
  | root
  | here
  | up
  | name (text : String)
  deriving DecidableEq, Repr

/-- Where a kind of step stands in the order of paths. -/
def Component.rank : Component → Nat
  | .root => 0
  | .here => 1
  | .up => 2
  | .name _ => 3

/-- The name of a step that has one. -/
def Component.text : Component → String
  | .name s => s
  | _ => ""

/-- Steps compare by their kind, names by their text. -/
def Component.compare (a b : Component) : Ordering :=
  (Ord.compare a.rank b.rank).then (Ord.compare a.text b.text)

namespace Path

/-- The steps behind the first slash, `pos` characters in. Empty steps and dots do not count. Each
step comes with the number of characters up to its end. -/
def laterParts : Nat → List (List Char) → List (Component × Nat)
  | _, [] => []
  | pos, piece :: pieces =>
    let stop := pos + piece.length
    let later := laterParts (stop + 1) pieces
    match piece with
    | [] => later
    | ['.'] => later
    | ['.', '.'] => (.up, stop) :: later
    | _ => (.name (String.ofList piece), stop) :: later

/-- The steps of a path, each with the number of characters up to its end. A dot counts only at
the start. -/
def parts (path : String) : List (Component × Nat) :=
  match path.toList.splitOn '/' with
  | [] => []
  | [[]] => []
  | [] :: pieces => (.root, 1) :: laterParts 1 pieces
  | ['.'] :: pieces => (.here, 1) :: laterParts 2 pieces
  | pieces => laterParts 0 pieces

/-- The steps of a path. -/
def components (path : String) : List Component := (parts path).map Prod.fst

/-- Paths compare step by step, and a path comes before all that go on from it. -/
def compare (a b : String) : Ordering :=
  List.compareLex Component.compare (components a) (components b)

/-- The path without its last step, cut off where the step before it ends. There is none above a
root or an empty path. -/
def parent? (path : String) : Option String :=
  match (parts path).reverse with
  | [] => none
  | [(.root, _)] => none
  | [_] => some ""
  | _ :: (_, stop) :: _ => some (String.ofList (path.toList.take stop))

/-- A directory and the directories above it, at most `count` in all. -/
def ancestors : Nat → String → List String
  | 0, _ => []
  | count + 1, path =>
    path :: match parent? path with
      | none => []
      | some above => ancestors count above

/-- The path of a name inside a directory. A name from the root stands by itself. -/
def join (dir name : String) : String :=
  if name.toList.head? = some '/' then name
  else if dir = "" || dir.toList.getLast? = some '/' then dir ++ name else dir ++ "/" ++ name

end Path

end Purity
