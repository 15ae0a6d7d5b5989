-- The outcome of checking: a report per function, one per module, and the whole output.
import Purity.Diagnostic

namespace Purity

/-- What was found out about a function with a body. -/
structure FunctionReport where
  id : String
  declared : Level
  inferred : Level
  synthesized : Bool
  warnings : Nat
  suggested : Bool
  deriving DecidableEq, Repr

/-- A function that could not be checked. -/
structure FunctionFailure where
  id : String
  reason : String
  deriving DecidableEq, Repr

/-- What was found out about the functions of a module. -/
structure ModuleReport where
  functions : List FunctionReport
  skipped : Nat
  failures : List FunctionFailure
  deriving DecidableEq, Repr

namespace ModuleReport

/-- Nothing found out. -/
def empty : ModuleReport := ⟨[], 0, []⟩

/-- The number of warnings of all functions, as a 64 bit word. -/
def warningCount (r : ModuleReport) : UInt64 :=
  r.functions.foldr (fun f count => UInt64.ofNat f.warnings + count) 0

/-- The number of functions with a suggestion. -/
def suggestionCount (r : ModuleReport) : Nat := r.functions.countP (·.suggested)

/-- The first report under an id. -/
def get? (r : ModuleReport) (id : String) : Option FunctionReport :=
  r.functions.find? (·.id = id)

end ModuleReport

/-- All that a check tells of a module. -/
structure CheckOutput where
  module : String
  diagnostics : List Diagnostic
  report : ModuleReport
  deriving DecidableEq, Repr

/-- The number of diagnostics of a severity. -/
def CheckOutput.count (o : CheckOutput) (s : Severity) : Nat :=
  o.diagnostics.countP (·.severity = s)

end Purity
