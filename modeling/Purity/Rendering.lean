-- The texts that a run prints: the output of a check, and the rules of the table.
import Purity.Format.Report

namespace Purity

/-! ## Colours -/

/-- How a word stands out on a terminal. -/
inductive Style
  | bold
  | boldYellow
  | boldRed
  | cyan
  deriving DecidableEq, Repr

/-- The code that switches a style on. -/
def Style.code : Style → String
  | .bold => "1"
  | .boldYellow => "1;33"
  | .boldRed => "1;31"
  | .cyan => "36"

/-- A word in a style, or plain where there are no colours. -/
def Style.paint (style : Style) (color : Bool) (word : String) : String :=
  if color then "\x1b[" ++ style.code ++ "m" ++ word ++ "\x1b[0m" else word

/-! ## The output of a check -/

/-- The forms of an output. -/
inductive OutputFormat
  | json
  | terminal
  deriving DecidableEq, Repr

namespace CheckOutput

/-- The output as indented JSON. -/
def jsonText (o : CheckOutput) : String := o.toJson.pretty ++ "\n"

/-- A diagnostic as a line. -/
def diagnosticLine (color : Bool) (d : Diagnostic) : String :=
  let word := match d.severity with
    | .warning => Style.boldYellow.paint color "warning"
    | .info => Style.cyan.paint color "info"
  word ++ ": " ++ d.render ++ "\n"

/-- The counts of the module in one line. -/
def summaryLine (color : Bool) (o : CheckOutput) : String :=
  Style.bold.paint color "Purity" ++ " " ++ o.module ++ ": " ++
    toString o.report.functions.length ++ " functions checked, " ++
    toString o.report.skipped ++ " skipped, " ++
    toString (o.count .warning) ++ " warnings, " ++
    toString (o.count .info) ++ " suggestions\n"

/-- The functions that could not be checked, if there are any. -/
def failureLines (color : Bool) (o : CheckOutput) : String :=
  let failures := o.report.failures
  if failures.isEmpty then ""
  else
    Style.boldRed.paint color "error:" ++ " " ++ toString failures.length ++
      " functions could not be analyzed\n" ++
      String.join (failures.map fun f => "  " ++ f.id ++ ": " ++ f.reason ++ "\n")

/-- The output for a terminal. -/
def terminalText (color : Bool) (o : CheckOutput) : String :=
  String.join (o.diagnostics.map (diagnosticLine color)) ++ "\n" ++ o.summaryLine color ++
    o.failureLines color

/-- The output in one of its forms. -/
def render (format : OutputFormat) (color : Bool) (o : CheckOutput) : String :=
  match format with
  | .json => o.jsonText
  | .terminal => o.terminalText color

end CheckOutput

/-! ## The rules -/

/-- A heading and the names under it. -/
def nameSection (color : Bool) (title : String) (names : List String) : String :=
  "\n" ++ Style.bold.paint color title ++ "\n" ++ String.join (names.map fun n => "  " ++ n ++ "\n")

/-- The rules of a table, for people. -/
def Table.explanation (color : Bool) (t : Table) : String :=
  Style.bold.paint color "Declared purity" ++ "\n" ++
    "  @Contract(pure = true)   -> Pure\n" ++
    "  @Contract(\"readonly\")    -> Readonly\n" ++
    "  member of a pure type    -> Pure\n" ++
    "  member of a readonly type -> Readonly\n" ++
    "  trusted function name    -> Pure\n" ++
    "  compile-time evaluable   -> Pure\n" ++
    "  anything else            -> None\n" ++
    nameSection color "Pure types" Capability.pure.types ++
    nameSection color "Readonly types" Capability.readonly.types ++
    nameSection color "Encapsulated stateful types" Capability.encapsulated.types ++
    if t.trusted.isEmpty then "" else nameSection color "Trusted pure functions" t.trustedSorted

end Purity
