-- The body of a function as a tree of expressions.
import Purity.Double
import Purity.Signature

namespace Purity

/-- A constant. -/
inductive Literal
  | null
  | bool (value : Bool)
  | int (value : Int64)
  | float (value : Double)
  | string (value : String)
  deriving DecidableEq

/-- A use of a variable. The owner is the id of the function that it belongs to. -/
structure Variable where
  name : String
  owner : String
  reassignable : Bool
  parameter : Bool
  deriving DecidableEq, Repr

namespace Variable

/-- A variable of the body of a function. -/
def ofLocal (name owner : String) (reassignable : Bool) : Variable :=
  ⟨name, owner, reassignable, false⟩

/-- A parameter of a function, which nobody can assign to. -/
def ofParameter (name owner : String) : Variable := ⟨name, owner, false, true⟩

/-- Whether a function owns the variable. -/
def ownedBy (v : Variable) (id : String) : Bool := v.owner = id

/-- Whether the variable is a local one of the function, not handed in. -/
def createdIn (v : Variable) (id : String) : Bool := !v.parameter && v.ownedBy id

end Variable

/-- An expression. Each one knows where in the source it stands. -/
inductive Expr
  | const (offset : UInt64) (value : Literal)
  | get (offset : UInt64) (var : Variable)
  | set (offset : UInt64) (var : Variable) (value : Expr)
  | call (offset : UInt64) (callee : Signature) (receiver : Option Expr) (arguments : List Expr)
  | ret (offset : UInt64) (value : Expr)
  | cast (offset : UInt64) (operand : Expr) (type : Option String)
  | block (offset : UInt64) (statements : List Expr)
  | declare (offset : UInt64) (var : Variable) (initial : Option Expr)
  | unhandled (offset : UInt64) (node : String) (children : List Expr)

/-- A call by itself. -/
structure Call where
  callee : Signature
  receiver : Option Expr
  arguments : List Expr

namespace Expr

/-- Where the expression stands. -/
def offset : Expr → UInt64
  | .const o _ => o
  | .get o _ => o
  | .set o _ _ => o
  | .call o _ _ _ => o
  | .ret o _ => o
  | .cast o _ _ => o
  | .block o _ => o
  | .declare o _ _ => o
  | .unhandled o _ _ => o

/-- The same expression at another place. -/
def moveTo (o : UInt64) : Expr → Expr
  | .const _ v => .const o v
  | .get _ v => .get o v
  | .set _ v e => .set o v e
  | .call _ c r as => .call o c r as
  | .ret _ e => .ret o e
  | .cast _ e t => .cast o e t
  | .block _ es => .block o es
  | .declare _ v e => .declare o v e
  | .unhandled _ n es => .unhandled o n es

/-- The expressions directly inside, in the order in which they are evaluated. -/
def children : Expr → List Expr
  | .const _ _ => []
  | .get _ _ => []
  | .set _ _ value => [value]
  | .call _ _ receiver arguments => receiver.toList ++ arguments
  | .ret _ value => [value]
  | .cast _ operand _ => [operand]
  | .block _ statements => statements
  | .declare _ _ initial => initial.toList
  | .unhandled _ _ children => children

/-- The word for the kind of an expression; one that is not handled brings its own. -/
def kindName : Expr → String
  | .const _ _ => "const"
  | .get _ _ => "get_value"
  | .set _ _ _ => "set_value"
  | .call _ _ _ _ => "call"
  | .ret _ _ => "return"
  | .cast _ _ _ => "type_operator"
  | .block _ _ => "block"
  | .declare _ _ _ => "declare"
  | .unhandled _ node _ => node

mutual

/-- An expression and all inside it, each before what is inside it. -/
def nodes : Expr → List Expr
  | .const o v => [.const o v]
  | .get o v => [.get o v]
  | .set o v e => .set o v e :: e.nodes
  | .call o c r as => .call o c r as :: (nodesOption r ++ nodesList as)
  | .ret o e => .ret o e :: e.nodes
  | .cast o e t => .cast o e t :: e.nodes
  | .block o es => .block o es :: nodesList es
  | .declare o v e => .declare o v e :: nodesOption e
  | .unhandled o n es => .unhandled o n es :: nodesList es

/-- The nodes of an expression that may be missing. -/
def nodesOption : Option Expr → List Expr
  | none => []
  | some e => e.nodes

/-- The nodes of expressions one after the other. -/
def nodesList : List Expr → List Expr
  | [] => []
  | e :: es => e.nodes ++ nodesList es

end

theorem nodesOption_eq (r : Option Expr) : nodesOption r = r.toList.flatMap nodes := by
  cases r with
  | none => rfl
  | some e => simp [nodesOption]

theorem nodesList_eq (es : List Expr) : nodesList es = es.flatMap nodes := by
  induction es with
  | nil => rfl
  | cons e es ih => rw [nodesList, ih, List.flatMap_cons]

theorem nodes_eq (e : Expr) : e.nodes = e :: e.children.flatMap nodes := by
  cases e <;> simp [nodes, children, nodesOption_eq, nodesList_eq]

/-- The number of nodes of an expression. -/
def nodeCount (e : Expr) : Nat := e.nodes.length

/-- A node counts for one, and its children for what they count. -/
theorem nodeCount_eq (e : Expr) :
    e.nodeCount = 1 + (e.children.map nodeCount).foldr (· + ·) 0 := by
  have hlength : (e.children.flatMap nodes).length = (e.children.map nodeCount).foldr (· + ·) 0 :=
    List.length_flatMap
  rw [nodeCount, nodes_eq, List.length_cons, hlength, Nat.add_comm]

end Expr

end Purity
