-- The level that a function declares: by its marks, by the type that it belongs to, or because its
-- name is trusted.
import Purity.Level
import Purity.Signature
import Purity.Text.Blank

namespace Purity

/-! ## Known names -/

/-- The mark that states a contract. -/
def contractName : String := "org.jetbrains.annotations.Contract"

/-- The mark on functions that the compiler itself can evaluate. -/
def evaluationName : String := "kotlin.internal.IntrinsicConstEvaluation"

/-- The contract of a pure function. -/
def Mark.contractPure : Mark := ⟨contractName, Arguments.empty.insert "pure" (.flag true)⟩

/-- The contract of a readonly function. -/
def Mark.contractReadonly : Mark :=
  ⟨contractName, Arguments.empty.insert "value" (.text "readonly")⟩

/-- What is known of all members of a type. -/
inductive Capability
  | pure
  | readonly
  /-- Members change state, but only that of their own instance. -/
  | encapsulated
  deriving DecidableEq, Repr

namespace Capability

/-- The capabilities in the order in which they are listed. -/
def all : List Capability := [.pure, .readonly, .encapsulated]

/-- The word for a capability. -/
def key : Capability → String
  | .pure => "pure"
  | .readonly => "readonly"
  | .encapsulated => "encapsulated_stateful"

/-- The types with a capability, in order. -/
def types : Capability → List String
  | .pure =>
    ["kotlin.Boolean", "kotlin.Char", "kotlin.Double", "kotlin.Float", "kotlin.Int", "kotlin.Long",
      "kotlin.String", "kotlin.ranges.CharRange", "kotlin.ranges.DoubleRange",
      "kotlin.ranges.FloatRange", "kotlin.ranges.IntRange", "kotlin.ranges.LongRange"]
  | .readonly =>
    ["kotlin.String", "kotlin.collections.Collection", "kotlin.collections.List",
      "kotlin.collections.Map", "kotlin.collections.Set", "kotlin.sequences.Sequence",
      "kotlin.text.MatchResult", "kotlin.text.Regex"]
  | .encapsulated =>
    ["java.lang.StringBuilder", "kotlin.collections.ArrayList", "kotlin.collections.HashMap",
      "kotlin.collections.HashSet", "kotlin.collections.LinkedHashMap",
      "kotlin.collections.LinkedHashSet", "kotlin.text.StringBuilder"]

/-- The capabilities of a type. -/
def ofType (type : String) : List Capability := all.filter fun c => c.types.contains type

end Capability

/-- The name of constructors. -/
def constructorName : String := "<init>"

/-! ## Signatures by themselves -/

namespace Signature

/-- Whether the function belongs to a type with the capability. -/
def ownerHas (s : Signature) (c : Capability) : Bool :=
  match s.ownerName? with
  | some owner => c.types.contains owner
  | none => false

/-- Whether a contract says that the function is pure. -/
def contractsPure (s : Signature) : Bool := Mark.flag? s.marks contractName "pure" = some true

/-- Whether a contract says that the function is readonly. -/
def contractsReadonly (s : Signature) : Bool :=
  Mark.text? s.marks contractName "value" = some "readonly"

/-- Whether the function is a member of a type that keeps its state to itself. -/
def isEncapsulated (s : Signature) : Bool := s.ownerHas .encapsulated

/-- Whether the function makes an instance of a type that keeps its state to itself. -/
def createsEncapsulated (s : Signature) : Bool := s.name = constructorName && s.isEncapsulated

/-- Whether a name is that of an accessor by position, such as `component2`. -/
def isComponentName (name : String) : Bool :=
  let cs := name.toList
  let stem := "component".toList
  stem.isPrefixOf cs && !(cs.drop stem.length).isEmpty && (cs.drop stem.length).all Char.isDigit

/-- Whether the compiler writes functions of this name by itself, so that nobody can mark them. -/
def isSynthesized (s : Signature) : Bool :=
  ["equals", "hashCode", "toString"].contains s.name ||
    s.name.toList.head? = some '<' ||
    match s.ownerKind? with
    | some .enum => ["values", "valueOf", "compareTo", "clone"].contains s.name
    | some .data => s.name = "copy" || isComponentName s.name
    | _ => false

end Signature

/-! ## The table -/

/-- The names that a user vouches for, each once. -/
structure Table where
  trusted : List String
  deriving DecidableEq, Repr

namespace Table

/-- The table that trusts the given names. Blanks around a name do not count, nor do empty
names. -/
def ofNames (names : List String) : Table := ⟨(Text.trimAll names).eraseDups⟩

/-- The table that trusts no names. -/
def default : Table := ofNames []

/-- The trusted names in order. -/
def trustedSorted (t : Table) : List String := t.trusted.mergeSort fun a b => decide (a ≤ b)

/-- The level that a function declares. Contracts come first, then the type, then trust. -/
def declaredLevel (t : Table) (s : Signature) : Level :=
  if s.contractsPure then .pure
  else if s.contractsReadonly then .readonly
  else if s.ownerHas .pure then .pure
  else if s.ownerHas .readonly then .readonly
  else if t.trusted.contains s.qualifiedName then .pure
  else if Mark.among s.marks evaluationName then .pure
  else .none

end Table

end Purity
