-- Why a JSON text does not describe the value that is wanted from it.
import Purity.Json.Node

namespace Purity.Json

/-- What stands where something else is wanted. -/
inductive Found
  | null
  | bool (value : Bool)
  | number (value : Number)
  | string (value : String)
  | sequence
  | map
  deriving DecidableEq, Repr

/-- What is wanted at a place of a text. -/
inductive Wanted
  | text
  | truth
  | sequence
  | map
  | size
  | path
  | unit
  /-- A record by its name. -/
  | record (name : String)
  /-- A value of a type whose members carry the name of their variant. -/
  | tagged (name : String)
  /-- The name of a variant, or an object with that name as its key. -/
  | choice
  | singleKey
  | variantName
  /-- The number of a variant, below the given count. -/
  | variantIndex (count : Nat)
  /-- The fields of a record in order. -/
  | fields (name : String) (count : Nat)
  | items (count : Nat)
  deriving DecidableEq, Repr

/-- A text that is JSON, but not of the wanted value. -/
inductive Problem
  | wrongType (found : Found) (wanted : Wanted)
  | wrongValue (found : Found) (wanted : Wanted)
  | wrongLength (length : Nat) (wanted : Wanted)
  | unknownVariant (name : String) (known : List String)
  | missing (field : String)
  | repeated (field : String)
  | noVariant (type : String)
  deriving DecidableEq, Repr

/-- Why a text cannot be read: it is not JSON, or it has a problem. -/
inductive ReadError
  | fault (fault : Fault)
  | problem (problem : Problem)
  deriving DecidableEq, Repr

/-- A name in the quotes that messages put around names. -/
def named (s : String) : String := "`" ++ s ++ "`"

/-- The words for a number of elements. -/
def elements (n : Nat) : String := if n = 1 then "1 element" else toString n ++ " elements"

/-- The words for what was found. -/
def Found.describe : Found → String
  | .null => "null"
  | .bool b => "boolean " ++ named (if b then "true" else "false")
  | .number (.int i) => "integer " ++ named (toString i)
  | .number (.float x) => "floating point " ++ named (String.ofList x.text)
  | .string s => "string " ++ Text.quoted s
  | .sequence => "sequence"
  | .map => "map"

/-- The words for what is wanted. -/
def Wanted.describe : Wanted → String
  | .text => "a string"
  | .truth => "a boolean"
  | .sequence => "a sequence"
  | .map => "a map"
  | .size => "usize"
  | .path => "path string"
  | .unit => "unit"
  | .record name => name
  | .tagged name => "internally tagged enum " ++ name
  | .choice => "string or map"
  | .singleKey => "map with a single key"
  | .variantName => "variant identifier"
  | .variantIndex n => "variant index 0 <= i < " ++ toString n
  | .fields name n => name ++ " with " ++ elements n
  | .items n => elements n ++ " in sequence"

/-- The words for the names that may stand at a place. -/
def oneOf : List String → String
  | [] => "there are no variants"
  | [a] => named a
  | [a, b] => named a ++ " or " ++ named b
  | names => "one of " ++ String.intercalate ", " (names.map named)

/-- The message of a problem. -/
def Problem.message : Problem → String
  | .wrongType found wanted => "invalid type: " ++ found.describe ++ ", expected " ++ wanted.describe
  | .wrongValue found wanted => "invalid value: " ++ found.describe ++ ", expected " ++ wanted.describe
  | .wrongLength n wanted => "invalid length " ++ toString n ++ ", expected " ++ wanted.describe
  | .unknownVariant name known => "unknown variant " ++ named name ++ ", expected " ++ oneOf known
  | .missing field => "missing field " ++ named field
  | .repeated field => "duplicate field " ++ named field
  | .noVariant type => "data did not match any variant of untagged enum " ++ type

end Purity.Json
