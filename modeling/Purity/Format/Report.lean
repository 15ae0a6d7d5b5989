-- Reports, diagnostics and violations as JSON.
import Purity.Check
import Purity.Format.Signature

namespace Purity

open Json

/-! ## Violations and progress -/

/-- A violation, by its tag `type`. -/
def Violation.read : Reader Violation :=
  tagged "Violation" "type" [
    ("sets_variable",
      record "struct variant Violation::SetsVariable" (.cons (.required "variable" text) .nil)
        fun (name, ()) => .setsVariable name),
    ("reads_variable",
      record "struct variant Violation::ReadsVariable" (.cons (.required "variable" text) .nil)
        fun (name, ()) => .readsVariable name),
    ("calls_weaker",
      record "struct variant Violation::CallsWeaker"
        (.cons (.required "callee" text) <| .cons (.required "callee_level" Level.read) .nil)
        fun (callee, level, ()) => .callsWeaker callee level),
    ("unrecognized_construct",
      record "struct variant Violation::UnrecognizedConstruct" (.cons (.required "node" text) .nil)
        fun (node, ()) => .unrecognized node)]

/-- A violation as an object. -/
def Violation.toJson : Violation → Json
  | .setsVariable v => .object [("type", .string "sets_variable"), ("variable", .string v)]
  | .readsVariable v => .object [("type", .string "reads_variable"), ("variable", .string v)]
  | .callsWeaker c level =>
    .object [("type", .string "calls_weaker"), ("callee", .string c),
      ("callee_level", level.toJson)]
  | .unrecognized n => .object [("type", .string "unrecognized_construct"), ("node", .string n)]

/-- A progress, by its tag `state`. -/
def Progress.read : Reader Progress :=
  tagged "FunctionState" "state" [
    ("unvisited", record "unit variant FunctionState::Unvisited" .nil fun () => .unvisited),
    ("visiting", record "unit variant FunctionState::Visiting" .nil fun () => .visiting),
    ("skipped", record "unit variant FunctionState::Skipped" .nil fun () => .skipped),
    ("classified",
      record "struct variant FunctionState::Classified" (.cons (.required "level" Level.read) .nil)
        fun (level, ()) => .classified level),
    ("failed",
      record "struct variant FunctionState::Failed" (.cons (.required "reason" text) .nil)
        fun (reason, ()) => .failed reason)]

/-- A progress as an object. -/
def Progress.toJson : Progress → Json
  | .unvisited => .object [("state", .string "unvisited")]
  | .visiting => .object [("state", .string "visiting")]
  | .skipped => .object [("state", .string "skipped")]
  | .classified level => .object [("state", .string "classified"), ("level", level.toJson)]
  | .failed reason => .object [("state", .string "failed"), ("reason", .string reason)]

/-- A finding as an object. -/
def Finding.toJson (f : Finding) : Json :=
  .object [("violation", f.violation.toJson), ("offset", .nat f.offset.toNat)]

/-- A classification as an object. -/
def Classification.toJson (c : Classification) : Json :=
  .object [("declared", c.declared.toJson), ("inferred", c.inferred.toJson),
    ("findings", .array (c.findings.map Finding.toJson)), ("visited_nodes", .nat c.visited)]

/-! ## Diagnostics -/

/-- A severity by its word. -/
def Severity.read : Reader Severity := choice [("info", .info), ("warning", .warning)]

/-- The fields of a place. -/
def Location.fields : Fields [String, UInt64, UInt64] :=
  .cons (.required "file" path) <|
  .cons (.required "line" word) <|
  .cons (.required "column" word) .nil

/-- A place. -/
def Location.read : Reader Location :=
  record "struct SourceLocation" fields fun (file, line, column, ()) => ⟨file, line, column⟩

/-- A place as an object. -/
def Location.toJson (l : Location) : Json :=
  .object [("file", .string l.file), ("line", .nat l.line.toNat), ("column", .nat l.column.toNat)]

/-- The fields of a diagnostic. -/
def Diagnostic.fields : Fields [Severity, String, Location, String] :=
  .cons (.required "severity" Severity.read) <|
  .cons (.required "message" Json.text) <|
  .cons (.required "location" Location.read) <|
  .cons (.required "function" Json.text) .nil

/-- A diagnostic. -/
def Diagnostic.read : Reader Diagnostic :=
  record "struct Diagnostic" fields fun (severity, message, location, function, ()) =>
    ⟨severity, message, location, function⟩

/-- A diagnostic as an object. -/
def Diagnostic.toJson (d : Diagnostic) : Json :=
  .object [("severity", .string d.severity.key), ("message", .string d.message),
    ("location", d.location.toJson), ("function", .string d.function)]

/-! ## Reports -/

/-- The fields of a function's report. -/
def FunctionReport.fields : Fields [String, Level, Level, Bool, Nat, Bool] :=
  .cons (.required "id" text) <|
  .cons (.required "declared" Level.read) <|
  .cons (.required "inferred" Level.read) <|
  .cons (.required "synthesized" truth) <|
  .cons (.required "warnings" size) <|
  .cons (.required "suggested" truth) .nil

/-- The report of a function. -/
def FunctionReport.read : Reader FunctionReport :=
  record "struct FunctionReport" fields
    fun (id, declared, inferred, synthesized, warnings, suggested, ()) =>
      ⟨id, declared, inferred, synthesized, warnings, suggested⟩

/-- The report of a function as an object. -/
def FunctionReport.toJson (r : FunctionReport) : Json :=
  .object [("id", .string r.id), ("declared", r.declared.toJson), ("inferred", r.inferred.toJson),
    ("synthesized", .bool r.synthesized), ("warnings", .nat r.warnings),
    ("suggested", .bool r.suggested)]

/-- The fields of a failure. -/
def FunctionFailure.fields : Fields [String, String] :=
  .cons (.required "id" text) <|
  .cons (.required "reason" text) .nil

/-- A failure. -/
def FunctionFailure.read : Reader FunctionFailure :=
  record "struct FunctionFailure" fields fun (id, reason, ()) => ⟨id, reason⟩

/-- A failure as an object. -/
def FunctionFailure.toJson (f : FunctionFailure) : Json :=
  .object [("id", .string f.id), ("reason", .string f.reason)]

/-- The fields of a module's report. -/
def ModuleReport.fields : Fields [List FunctionReport, Nat, List FunctionFailure] :=
  .cons (.required "functions" (list FunctionReport.read)) <|
  .cons (.required "skipped" size) <|
  .cons (.required "failures" (list FunctionFailure.read)) .nil

/-- The report of a module. -/
def ModuleReport.read : Reader ModuleReport :=
  record "struct ModuleReport" fields fun (functions, skipped, failures, ()) =>
    ⟨functions, skipped, failures⟩

/-- The report of a module as an object. -/
def ModuleReport.toJson (r : ModuleReport) : Json :=
  .object [("functions", .array (r.functions.map FunctionReport.toJson)),
    ("skipped", .nat r.skipped), ("failures", .array (r.failures.map FunctionFailure.toJson))]

/-- The fields of an output. -/
def CheckOutput.fields : Fields [String, List Diagnostic, ModuleReport] :=
  .cons (.required "module" text) <|
  .cons (.required "diagnostics" (list Diagnostic.read)) <|
  .cons (.required "report" ModuleReport.read) .nil

/-- An output. -/
def CheckOutput.read : Reader CheckOutput :=
  record "struct CheckOutput" fields fun (module, diagnostics, report, ()) =>
    ⟨module, diagnostics, report⟩

/-- An output as an object. -/
def CheckOutput.toJson (o : CheckOutput) : Json :=
  .object [("module", .string o.module),
    ("diagnostics", .array (o.diagnostics.map Diagnostic.toJson)), ("report", o.report.toJson)]

end Purity
