-- Expressions in module descriptions. The member `kind` says which other members an expression
-- has, and it may stand behind them, so all of them are taken in before they are read.
import Purity.Expr
import Purity.Format.Signature

namespace Purity

open Json

/-! ## Variables and constants -/

/-- The fields of a variable. -/
def Variable.fields : Fields [String, String, Bool, Bool] :=
  .cons (.required "name" text) <|
  .cons (.required "owner" text) <|
  .cons (.defaulted "reassignable" truth false) <|
  .cons (.defaulted "parameter" truth false) .nil

/-- A variable. -/
def Variable.read : Reader Variable :=
  record "struct VariableRef" fields fun (name, owner, reassignable, parameter, ()) =>
    ⟨name, owner, reassignable, parameter⟩

/-- A variable as an object. -/
def Variable.toJson (v : Variable) : Json :=
  .object [("name", .string v.name), ("owner", .string v.owner),
    ("reassignable", .bool v.reassignable), ("parameter", .bool v.parameter)]

/-- A constant, taken in whole first. A whole number too large for a signed word becomes the
nearest double. -/
def Literal.read : Reader Literal := fun src node => do
  orFault (takeIn src node)
  match node with
  | .null => .ok .null
  | .bool b => .ok (.bool b)
  | .number (.int i) =>
    if i < 0x8000000000000000 then .ok (.int (Int64.ofInt i))
    else
      match Double.ofRatio? false i.toNat 1 with
      | some x => .ok (.float x)
      | none => refuse (.noVariant "Literal")
  | .number (.float x) => .ok (.float x)
  | .string s => .ok (.string s)
  | _ => refuse (.noVariant "Literal")

/-- A constant as it is. -/
def Literal.toJson : Literal → Json
  | .null => .null
  | .bool b => .bool b
  | .int i => .int i.toInt
  | .float x => .float x
  | .string s => .string s

namespace Expr

/-! ## Kinds -/

/-- The kinds of expressions. -/
inductive Kind
  | const
  | get
  | set
  | call
  | ret
  | cast
  | block
  | declare
  | unhandled
  deriving DecidableEq, Repr

/-- What a member of an expression holds. -/
inductive Part
  | literal
  | var
  | callee
  | label
  | maybeLabel
  | operand
  | maybeOperand
  | operands
  deriving DecidableEq, Repr

namespace Kind

/-- The kinds under their words, in the order of their numbers. -/
def all : List (String × Kind) :=
  [("const", .const), ("get_value", .get), ("set_value", .set), ("call", .call), ("return", .ret),
    ("type_operator", .cast), ("block", .block), ("declare", .declare), ("unhandled", .unhandled)]

/-- The members of an expression of a kind. -/
def parts : Kind → List (String × Part)
  | .const => [("value", .literal)]
  | .get => [("variable", .var)]
  | .set => [("variable", .var), ("value", .operand)]
  | .call => [("callee", .callee), ("receiver", .maybeOperand), ("arguments", .operands)]
  | .ret => [("value", .operand)]
  | .cast => [("operand", .operand), ("type_name", .maybeLabel)]
  | .block => [("statements", .operands)]
  | .declare => [("variable", .var), ("initializer", .maybeOperand)]
  | .unhandled => [("node", .label), ("children", .operands)]

/-- A kind by its word or its number. -/
def read : Node → Reading Kind
  | .number (.int i) =>
    if i < 0 then Node.unwanted (.number (.int i)) .variantName
    else
      match all[i.toNat]? with
      | some (_, kind) => .ok kind
      | none => refuse (.wrongValue (.number (.int i)) (.variantIndex all.length))
  | n => variantName all n

/-- The kind among the members of an expression. -/
def find (members : Members) : Reading Kind := do
  let found ← members.fold (fun (found : Option Kind) key value =>
    if key = "kind" then
      match found with
      | some _ => refuse (.repeated "kind")
      | none => (read value).map some
    else .ok found) none
  match found with
  | some kind => .ok kind
  | none => refuse (.missing "kind")

end Kind

/-! ## Reading -/

/-- The members of an expression met so far. No kind has two of one sort. -/
structure Pieces where
  literal : Option Literal := none
  var : Option Variable := none
  callee : Option Signature := none
  label : Option (Option String) := none
  operand : Option (Option Expr) := none
  operands : Option (List Expr) := none

/-- Takes a member that has not been met before. -/
def once {α : Type} (name : String) (before : Option α) (value : Reading α) : Reading (Option α) :=
  match before with
  | some _ => refuse (.repeated name)
  | none => value.map some

/-- A member that must be there. -/
def need {α : Type} (name : String) : Option α → Reading α
  | some a => .ok a
  | none => refuse (.missing name)

/-- The expression of a kind with its members. -/
def build (offset : UInt64) (p : Pieces) : Kind → Reading Expr
  | .const => return .const offset (← need "value" p.literal)
  | .get => return .get offset (← need "variable" p.var)
  | .set => return .set offset (← need "variable" p.var) (← need "value" (p.operand.getD none))
  | .call =>
    return .call offset (← need "callee" p.callee) (p.operand.getD none) (p.operands.getD [])
  | .ret => return .ret offset (← need "value" (p.operand.getD none))
  | .cast => return .cast offset (← need "operand" (p.operand.getD none)) (p.label.getD none)
  | .block => return .block offset (p.operands.getD [])
  | .declare => return .declare offset (← need "variable" p.var) (p.operand.getD none)
  | .unhandled =>
    return .unhandled offset (← need "node" (p.label.getD none)) (p.operands.getD [])

/-- The field that every expression has. -/
def fields : Fields [UInt64] := .cons (.defaulted "offset" word 0) .nil

mutual

/-- An expression. -/
def read : Source → Node → Reading Expr
  | src, .object members => do
    let (offset, ()) ← fields.ofMembers src (takeIn src) members
    let kind ← Kind.find members
    let pieces ← readPieces kind {} members
    build offset pieces kind
  | _, .null => Node.unwanted .null (.record "struct Expr")
  | _, .bool b => Node.unwanted (.bool b) (.record "struct Expr")
  | _, .number n => Node.unwanted (.number n) (.record "struct Expr")
  | _, .string s => Node.unwanted (.string s) (.record "struct Expr")
  | _, .array items => Node.unwanted (.array items) (.record "struct Expr")
  | _, .untakable => Node.unwanted .untakable (.record "struct Expr")
  | _, .flaw f => Node.unwanted (.flaw f) (.record "struct Expr")

/-- An expression or null, from a held value. -/
def readMaybe : Node → Reading (Option Expr)
  | .null => .ok none
  | .object members => (read .held (.object members)).map some
  | .bool b => Node.unwanted (.bool b) (.record "struct Expr")
  | .number n => Node.unwanted (.number n) (.record "struct Expr")
  | .string s => Node.unwanted (.string s) (.record "struct Expr")
  | .array items => Node.unwanted (.array items) (.record "struct Expr")
  | .untakable => Node.unwanted .untakable (.record "struct Expr")
  | .flaw f => Node.unwanted (.flaw f) (.record "struct Expr")

/-- A list of expressions, from a held value. -/
def readMany : Node → Reading (List Expr)
  | .array items => readItems items
  | .null => Node.unwanted .null .sequence
  | .bool b => Node.unwanted (.bool b) .sequence
  | .number n => Node.unwanted (.number n) .sequence
  | .string s => Node.unwanted (.string s) .sequence
  | .object members => Node.unwanted (.object members) .sequence
  | .untakable => Node.unwanted .untakable .sequence
  | .flaw f => Node.unwanted (.flaw f) .sequence

/-- The expressions of an array that is held. -/
def readItems : Items → Reading (List Expr)
  | .closed => .ok []
  | .flaw f => .error (.fault f.taking)
  | .cons head tail => do
    let e ← read .held head
    let es ← readItems tail
    return e :: es

/-- The members that belong to the kind, in the order in which they stand. -/
def readPieces (kind : Kind) (p : Pieces) : Members → Reading Pieces
  | .closed => .ok p
  | .flaw f => .error (.fault f.taking)
  | .keyless _ => .error (.fault .malformed)
  | .cons none _ _ => .error (.fault .malformed)
  | .cons (some key) value tail => do
    match kind.parts.lookup key with
    | none => readPieces kind p tail
    | some .literal =>
      let literal ← once key p.literal (Literal.read .held value)
      readPieces kind { p with literal } tail
    | some .var =>
      let var ← once key p.var (Variable.read .held value)
      readPieces kind { p with var } tail
    | some .callee =>
      let callee ← once key p.callee (Signature.read .held value)
      readPieces kind { p with callee } tail
    | some .label =>
      let label ← once key p.label ((text .held value).map some)
      readPieces kind { p with label } tail
    | some .maybeLabel =>
      let label ← once key p.label (nullable text .held value)
      readPieces kind { p with label } tail
    | some .operand =>
      let operand ← once key p.operand ((read .held value).map some)
      readPieces kind { p with operand } tail
    | some .maybeOperand =>
      let operand ← once key p.operand (readMaybe value)
      readPieces kind { p with operand } tail
    | some .operands =>
      let operands ← once key p.operands (readMany value)
      readPieces kind { p with operands } tail

end

/-! ## Writing -/

mutual

/-- An expression as an object: its place, its kind, then what belongs to the kind. -/
def toJson : Expr → Json
  | .const o v => .object [("offset", .nat o.toNat), ("kind", .string "const"), ("value", v.toJson)]
  | .get o v =>
    .object [("offset", .nat o.toNat), ("kind", .string "get_value"), ("variable", v.toJson)]
  | .set o v e =>
    .object [("offset", .nat o.toNat), ("kind", .string "set_value"), ("variable", v.toJson),
      ("value", toJson e)]
  | .call o c r as =>
    .object ([("offset", .nat o.toNat), ("kind", .string "call"), ("callee", c.toJson)] ++
      (memberOption "receiver" r ++ [("arguments", .array (toJsonList as))]))
  | .ret o e => .object [("offset", .nat o.toNat), ("kind", .string "return"), ("value", toJson e)]
  | .cast o e t =>
    .object ([("offset", .nat o.toNat), ("kind", .string "type_operator"), ("operand", toJson e)] ++
      (t.map fun t => ("type_name", Json.string t)).toList)
  | .block o es =>
    .object [("offset", .nat o.toNat), ("kind", .string "block"),
      ("statements", .array (toJsonList es))]
  | .declare o v e =>
    .object ([("offset", .nat o.toNat), ("kind", .string "declare"), ("variable", v.toJson)] ++
      memberOption "initializer" e)
  | .unhandled o n es =>
    .object [("offset", .nat o.toNat), ("kind", .string "unhandled"), ("node", .string n),
      ("children", .array (toJsonList es))]

/-- A member for an expression that may be missing. -/
def memberOption (name : String) : Option Expr → List (String × Json)
  | none => []
  | some e => [(name, toJson e)]

/-- Expressions one after the other. -/
def toJsonList : List Expr → List Json
  | [] => []
  | e :: es => toJson e :: toJsonList es

end

end Expr

/-- The fields of a call. -/
def Call.fields : Fields [Signature, Option Expr, List Expr] :=
  .cons (.required "callee" Signature.read) <|
  .cons (.optional "receiver" Expr.read) <|
  .cons (.defaulted "arguments" (list Expr.read) []) .nil

/-- A call by itself. -/
def Call.read : Reader Call :=
  record "struct Call" fields fun (callee, receiver, arguments, ()) => ⟨callee, receiver, arguments⟩

end Purity
