-- Running a command on a disk.
import Purity.Args
import Purity.Check
import Purity.Config.File
import Purity.Format.Module

namespace Purity

/-- A failure of a run, with what was being done if that was said. -/
structure Stop where
  context : Option String
  failure : Failure
  deriving DecidableEq

/-- What is told of a failed run. -/
def Stop.message (s : Stop) : String := s.context.getD s.failure.message

/-- What a run can change: what is printed, and the disk. -/
structure World where
  printed : String
  disk : Disk

/-- A part of a run. What it has changed stays so, also when it fails. -/
abbrev Job := EStateM Stop World

/-- The end of a run: what went wrong, if anything did, what was printed, and the disk after it. -/
structure Outcome where
  stop : Option Stop
  printed : String
  disk : Disk
  deriving DecidableEq

/-- The exit code of a run. What was found in the module does not count. -/
def Outcome.exitCode (o : Outcome) : Nat := if o.stop.isSome then 1 else 0

namespace Command

/-- The path of a folder from the top. -/
def folderPath (cwd : List String) : String := "/" ++ String.intercalate "/" cwd

/-! ## Settings and modules -/

/-- The settings of a file that was asked for. -/
def askedConfig (d : Disk) (cwd : List String) (path : String) : Except Stop Config :=
  (Config.load d cwd path).mapError fun f => ⟨some ("Failed to load config " ++ path), f⟩

/-- The settings of a run: those of the file that was asked for, or those that hold here, as the
command line changes them. -/
def resolveConfig (d : Disk) (cwd : List String) (path : Option String) (o : Overrides) :
    Except Stop Config :=
  match path with
  | none => .ok ((Config.discover d cwd (folderPath cwd)).1.override o)
  | some path => (askedConfig d cwd path).map fun c => c.override o

/-- Reads a module from the disk. -/
def loadModule (d : Disk) (cwd : List String) (path : String) : Except Stop Module :=
  match d.read cwd path with
  | .error _ => .error ⟨none, .disk "Failed to read module"⟩
  | .ok text => (Module.parse path text).mapError fun f => ⟨none, f⟩

/-! ## Running -/

/-- Finds something out from the disk. -/
def ask {α : Type} (question : Disk → Except Stop α) : Job α := do
  match question (← get).disk with
  | .ok answer => return answer
  | .error s => throw s

/-- Prints a text, as far as it can be printed. -/
def print (host : Host) (text : String) : Job Unit := do
  modify fun w => { w with printed := w.printed ++ Host.beginning host.printRoom text }
  unless Host.fits host.printRoom text do throw ⟨none, .system host.complaint⟩

/-- Writes a text to a file. -/
def writeFile (host : Host) (cwd : List String) (path text : String) : Job Unit := do
  let (result, d) := (← get).disk.write host cwd path text
  modify fun w => { w with disk := d }
  if result matches .error _ then throw ⟨none, .disk "Failed to write output"⟩

/-- Prints a text, or writes it to a file. -/
def deliver (host : Host) (cwd : List String) (output : Option String) (text : String) : Job Unit :=
  match output with
  | none => print host text
  | some path => writeFile host cwd path text

/-- Checks a module and delivers the output. -/
def runCheck (host : Host) (cwd : List String) (color : Bool) (o : CheckOptions)
    (overrides : Overrides) : Job Unit := do
  let config ← ask fun d => resolveConfig d cwd o.config overrides
  let m ← ask fun d => loadModule d cwd o.module
  deliver host cwd o.output (((Checker.ofConfig config).output m host.turns).render o.format color)

/-- Prints the rules, with the names that the settings trust. -/
def runExplain (host : Host) (cwd : List String) (color : Bool) (path : Option String)
    (overrides : Overrides) : Job Unit := do
  let config ← ask fun d => resolveConfig d cwd path overrides
  print host (config.table.explanation color)

/-- Runs a command in the folder `cwd`. -/
def run (d : Disk) (cwd : List String) (color : Bool) (c : Command) (host : Host := {}) : Outcome :=
  let job := match c with
    | .check o => runCheck host cwd color o c.overrides
    | .explain path => runExplain host cwd color path c.overrides
  match job.run ⟨"", d⟩ with
  | .ok _ w => ⟨none, w.printed, w.disk⟩
  | .error s w => ⟨some s, w.printed, w.disk⟩

/-! ## Notes and files -/

/-- The file with settings that the user asked for. -/
def config? : Command → Option String
  | .check o => o.config
  | .explain path => path

/-- How much of its notes a run tells. -/
def volume : Command → Volume
  | .check o => .ofVerbosity o.verbosity
  | .explain _ => .ofVerbosity 0

/-- What is noted while the settings are made out. -/
def configNotes (d : Disk) (cwd : List String) : Option String → List Note
  | none => (Config.discover d cwd (folderPath cwd)).2
  | some path => [Config.loadNote path]

/-- What is noted while a module is checked with the given settings. -/
def checkNotes (config : Config) (path : String) (m : Module) (turns : List Nat) : List Note :=
  let checker := Checker.ofConfig config
  let run := checker.run m turns
  m.loadNote path :: Checker.tableNote checker.table :: run.notes ++
    [⟨.info, toString run.report.functions.length ++ " functions checked in " ++ path⟩]

/-- What a run notes about itself. -/
def notes (d : Disk) (cwd : List String) (c : Command) (host : Host := {}) : List Note :=
  match resolveConfig d cwd c.config? c.overrides with
  | .error _ => []
  | .ok config =>
    configNotes d cwd c.config? ++
      match c with
      | .explain _ => [Checker.tableNote config.table]
      | .check o =>
        match loadModule d cwd o.module with
        | .error _ => []
        | .ok m => checkNotes config o.module m host.turns

/-- The paths of all files that a run may read or write. -/
def paths (cwd : List String) (c : Command) : List String :=
  (match c.config? with
    | some path => [path]
    | none => Config.candidates (folderPath cwd)) ++
  match c with
  | .check o => o.module :: o.output.toList
  | .explain _ => []

end Command

end Purity
