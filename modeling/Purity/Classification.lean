-- The level that a body supports, and what in it breaks the level that the function declares.
import Purity.Log
import Purity.Module
import Purity.Table
import Purity.Text.Quoted

namespace Purity

/-! ## Violations -/

/-- Something in a body that takes it below pure. -/
inductive Violation
  | setsVariable (name : String)
  | readsVariable (name : String)
  | callsWeaker (callee : String) (level : Level)
  | unrecognized (node : String)
  deriving DecidableEq, Repr

namespace Violation

/-- The best level of a body with this in it. -/
def supported : Violation → Level
  | .setsVariable _ => .none
  | .readsVariable _ => .readonly
  | .callsWeaker _ level => level
  | .unrecognized _ => .none

/-- A violation as notes show it. -/
def noteText : Violation → String
  | .setsVariable v => "SetsVariable \x7b variable: " ++ Text.quoted v ++ " \x7d"
  | .readsVariable v => "ReadsVariable \x7b variable: " ++ Text.quoted v ++ " \x7d"
  | .callsWeaker c level =>
    "CallsWeaker \x7b callee: " ++ Text.quoted c ++ ", callee_level: " ++ level.title ++ " \x7d"
  | .unrecognized n => "UnrecognizedConstruct \x7b node: " ++ Text.quoted n ++ " \x7d"

end Violation

/-- A violation and where it stands. -/
structure Finding where
  violation : Violation
  offset : UInt64
  deriving DecidableEq, Repr

/-! ## Reading a body -/

/-- Whether the receiver of a call is a local variable of the caller. -/
def receiverIsLocal (receiver : Option Expr) (caller : String) : Bool :=
  match receiver with
  | some (.get _ v) => v.createdIn caller
  | _ => false

namespace Table

/-- The level of a call as its caller sees it. A type that keeps its state to itself does no harm
where the caller made the instance. -/
def effectiveLevel (t : Table) (callee : Signature) (receiver : Option Expr) (caller : String) :
    Level :=
  let declared := t.declaredLevel callee
  if declared = .pure then .pure
  else if callee.createsEncapsulated then .pure
  else if callee.isEncapsulated && receiverIsLocal receiver caller then .pure
  else declared

end Table

/-! ## Walking through a body -/

/-- What a walk has seen so far: whether the body still supports readonly and pure, what breaks the
declared level, and how many nodes there were. -/
structure Walk where
  declared : Level
  supportsReadonly : Bool
  supportsPure : Bool
  findings : Array Finding
  visited : Nat

namespace Walk

/-- A walk before its first node. -/
def start (declared : Level) : Walk := ⟨declared, true, true, #[], 0⟩

/-- Counts a node. -/
def count (w : Walk) : Walk := { w with visited := w.visited + 1 }

/-- Caps the level of the body. -/
def limitTo (w : Walk) (level : Level) : Walk :=
  { w with
    supportsPure := if level < .pure then false else w.supportsPure
    supportsReadonly := if level < .readonly then false else w.supportsReadonly }

/-- Takes a violation in. It is kept only if it breaks the declared level. -/
def record (w : Walk) (v : Violation) (offset : UInt64) : Walk :=
  let capped := w.limitTo v.supported
  if v.supported < capped.declared then
    { capped with findings := capped.findings.push ⟨v, offset⟩ }
  else capped

/-- The level that the body supports, as far as it has been seen. -/
def inferred (w : Walk) : Level := .ofSupport w.supportsReadonly w.supportsPure

/-- Sees a variable set. Its owner may do so. -/
def setVariable (w : Walk) (caller : String) (v : Variable) (offset : UInt64) : Walk :=
  if v.ownedBy caller then w else w.record (.setsVariable v.name) offset

/-- Sees a variable read. What cannot change, or is the caller's own, does no harm. -/
def readVariable (w : Walk) (caller : String) (v : Variable) (offset : UInt64) : Walk :=
  if !v.reassignable || v.ownedBy caller then w else w.record (.readsVariable v.name) offset

/-- Sees a call. -/
def call (w : Walk) (t : Table) (caller : String) (callee : Signature) (receiver : Option Expr)
    (offset : UInt64) : Walk :=
  let level := t.effectiveLevel callee receiver caller
  if level = .pure then w else w.record (.callsWeaker callee.name level) offset

end Walk

namespace Table

mutual

/-- Walks through an expression: first itself, then all that is inside it. -/
def walk (t : Table) (caller : String) (w : Walk) : Expr → Walk
  | .const _ _ => w.count
  | .get o v => w.count.readVariable caller v o
  | .set o v e => walk t caller (w.count.setVariable caller v o) e
  | .call o c r as =>
    walkList t caller (walkOption t caller (w.count.call t caller c r o) r) as
  | .ret _ e => walk t caller w.count e
  | .cast _ e _ => walk t caller w.count e
  | .block _ es => walkList t caller w.count es
  | .declare _ _ e => walkOption t caller w.count e
  | .unhandled o n es => walkList t caller (w.count.record (.unrecognized n) o) es

/-- Walks through an expression that may be missing. -/
def walkOption (t : Table) (caller : String) (w : Walk) : Option Expr → Walk
  | none => w
  | some e => walk t caller w e

/-- Walks through expressions one after the other. -/
def walkList (t : Table) (caller : String) (w : Walk) : List Expr → Walk
  | [] => w
  | e :: es => walkList t caller (walk t caller w e) es

end

end Table

/-! ## Classification -/

/-- How a body stands to the level that its function declares. -/
structure Classification where
  declared : Level
  inferred : Level
  findings : List Finding
  visited : Nat
  deriving DecidableEq, Repr

namespace Classification

/-- Whether the body supports the declared level. -/
def meets (c : Classification) : Bool := c.declared ≤ c.inferred

/-- Whether the body supports more than the declared level. -/
def underClaimed (c : Classification) : Bool := c.declared < c.inferred

end Classification

/-- Classifies a function against a level. Only what breaks the level is kept as a finding. A
function without a body is what it declares. -/
def Table.classify (t : Table) (decl : Decl) (declared : Level) : Classification :=
  match decl.body with
  | none => ⟨declared, declared, [], 0⟩
  | some body =>
    let seen := t.walk decl.id (.start declared) body
    ⟨declared, seen.inferred, seen.findings.toList, seen.visited⟩

/-- The notes of classifying a function with a body. -/
def Classification.notes (c : Classification) (id : String) : List Note :=
  c.findings.map (fun f =>
    ⟨.trace, "Violation at offset " ++ toString f.offset.toNat ++ ": " ++ f.violation.noteText⟩) ++
  [⟨.debug, "Classified " ++ id ++ " (" ++ toString c.visited ++ " nodes): declared " ++
    c.declared.title ++ ", inferred " ++ c.inferred.title ++ ", " ++ toString c.findings.length ++
    " findings"⟩]

end Purity
