-- What is known of a function without its body: its name, the type it belongs to, and the marks
-- on it.
import Purity.Entries

namespace Purity

/-- The last part of an id, after its last dot. -/
def simpleName (id : String) : String :=
  String.ofList ((id.toList.reverse.takeWhile (· ≠ '.')).reverse)

/-! ## Marks -/

/-- The value of an argument of a mark. -/
inductive MarkValue
  | flag (value : Bool)
  | text (value : String)
  deriving DecidableEq, Repr

/-- The arguments of a mark, in the order of their keys, each key once. -/
structure Arguments where
  entries : List (String × MarkValue)
  ordered : entries.Pairwise fun a b => a.1 < b.1
  deriving DecidableEq

namespace Arguments

/-- No arguments. -/
def empty : Arguments := ⟨[], List.Pairwise.nil⟩

/-- Puts an argument in; the last one under a key stays. -/
def insert (arguments : Arguments) (key : String) (value : MarkValue) : Arguments :=
  ⟨Entries.insert key value arguments.entries,
    Entries.pairwise_insert key value _ arguments.ordered⟩

/-- The arguments of a list of keys and values. -/
def ofList (entries : List (String × MarkValue)) : Arguments :=
  entries.foldl (fun arguments e => arguments.insert e.1 e.2) empty

/-- The value under a key. -/
def get? (arguments : Arguments) (key : String) : Option MarkValue := arguments.entries.lookup key

end Arguments

/-- A mark that the source code puts on a function. -/
structure Mark where
  name : String
  arguments : Arguments
  deriving DecidableEq

namespace Mark

/-- Whether one of the marks has the name. -/
def among (marks : List Mark) (name : String) : Bool := marks.any (·.name = name)

/-- The flag under a key in the first mark of that name that has one there. -/
def flag? (marks : List Mark) (name key : String) : Option Bool :=
  (marks.filter (·.name = name)).findSome? fun m =>
    match m.arguments.get? key with
    | some (.flag b) => some b
    | _ => none

/-- The text under a key in the first mark of that name that has one there. -/
def text? (marks : List Mark) (name key : String) : Option String :=
  (marks.filter (·.name = name)).findSome? fun m =>
    match m.arguments.get? key with
    | some (.text s) => some s
    | _ => none

end Mark

/-! ## Signatures -/

/-- The kinds of types that functions belong to. -/
inductive OwnerKind
  | regular
  | interface
  | enum
  | data
  | object
  deriving DecidableEq, Repr

/-- The word for a kind of type. -/
def OwnerKind.key : OwnerKind → String
  | .regular => "class"
  | .interface => "interface"
  | .enum => "enum"
  | .data => "data"
  | .object => "object"

/-- The kinds of types, in the order in which messages list them. -/
def OwnerKind.all : List OwnerKind := [.regular, .interface, .enum, .data, .object]

/-- The type that a function is a member of. -/
structure Owner where
  name : String
  kind : OwnerKind
  deriving DecidableEq, Repr

/-- A function by its name, its type if it is a member, and its marks. -/
structure Signature where
  name : String
  owner : Option Owner
  marks : List Mark
  deriving DecidableEq

namespace Signature

/-- A free function without marks. -/
def ofName (name : String) : Signature := ⟨name, none, []⟩

/-- The name of the owner, if there is one. -/
def ownerName? (s : Signature) : Option String := s.owner.map (·.name)

/-- The kind of the owner, if there is one. -/
def ownerKind? (s : Signature) : Option OwnerKind := s.owner.map (·.kind)

/-- The name with the owner's name in front. -/
def qualifiedName (s : Signature) : String :=
  match s.owner with
  | some owner => owner.name ++ "." ++ s.name
  | none => s.name

end Signature

end Purity
