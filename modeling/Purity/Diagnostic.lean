-- What the user is told about a function, and in which order.
import Purity.Classification
import Purity.Failure

namespace Purity

/-- How a message is meant. -/
inductive Severity
  | info
  | warning
  deriving DecidableEq, Repr

namespace Severity

/-- The word for a severity. -/
def key : Severity → String
  | .info => "info"
  | .warning => "warning"

/-- Warnings come before suggestions. -/
def rank : Severity → Nat
  | .warning => 0
  | .info => 1

end Severity

/-- A message about a place in the source. -/
structure Diagnostic where
  severity : Severity
  message : String
  location : Location
  function : String
  deriving DecidableEq, Repr

namespace Diagnostic

/-- The place and the message. -/
def render (d : Diagnostic) : String := d.location.text ++ " " ++ d.message

/-- The severity, the place and the message. -/
def text (d : Diagnostic) : String := d.severity.key ++ ": " ++ d.render

/-- Diagnostics compare by place, then severity, then message. -/
def compare (a b : Diagnostic) : Ordering :=
  (a.location.compare b.location).then
    ((Ord.compare a.severity.rank b.severity.rank).then (Ord.compare a.message b.message))

/-- Diagnostics in order; those that compare equal stay as they came. -/
def sort (ds : List Diagnostic) : List Diagnostic := ds.mergeSort fun a b => (a.compare b).isLE

/-- Each diagnostic on a line of its own. -/
def stream (ds : List Diagnostic) : String := String.join (ds.map fun d => d.text ++ "\n")

end Diagnostic

/-- A text in plain double quotes. -/
def inQuotes (s : String) : String := "\"" ++ s ++ "\""

/-- Says how a function breaks the level that it declares. -/
def Violation.message (function : String) (declared : Level) (v : Violation) : String :=
  "Function " ++ inQuotes function ++ " is marked as " ++ declared.title ++ " but " ++
    match v with
    | .setsVariable name => "sets variable " ++ inQuotes name
    | .readsVariable name => "reads variable " ++ inQuotes name
    | .callsWeaker callee _ => "calls non-" ++ declared.title ++ " function " ++ inQuotes callee
    | .unrecognized node => "contains unrecognized construct " ++ inQuotes node

/-- Says which contract a function could have. There is none for the weakest level. -/
def suggestion (id function : String) : Level → Except Failure String
  | .pure =>
    .ok ("Function " ++ inQuotes function ++
      " can be marked with @Contract(pure = true) to indicate it is pure")
  | .readonly =>
    .ok ("Function " ++ inQuotes function ++
      " can be marked with @Contract(\"readonly\") to indicate it is readonly")
  | .none => .error (.noSuggestion id .none)

end Purity
