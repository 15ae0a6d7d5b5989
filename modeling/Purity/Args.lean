-- The command line: from words to a command.
import Purity.Config
import Purity.Rendering

namespace Purity

/-- Checks a module. -/
structure CheckOptions where
  module : String
  config : Option String
  format : OutputFormat
  output : Option String
  disable : Bool
  names : Option String
  noParallel : Bool
  jobs : Nat
  verbosity : Nat
  deriving DecidableEq, Repr

/-- What the user wants. -/
inductive Command
  | check (options : CheckOptions)
  | explain (config : Option String)
  deriving DecidableEq, Repr

/-- Why words are no command. Help and the version are answers of their own. -/
inductive UsageError
  | help
  | version
  | noCommand
  | missingArgument
  | unknownArgument
  | unknownCommand
  | invalidValue
  | invalidNumber
  | repeated
  | unwantedValue
  deriving DecidableEq, Repr

/-- The exit code. Who asks for help or the version gets what they asked for. -/
def UsageError.exitCode : UsageError → Nat
  | .help => 0
  | .version => 0
  | _ => 2

/-- The text that tells the version. -/
def versionText : String := "puritycheck 0.3.0\n"

/-- The text that tells how to use the program. -/
def helpText : String :=
  "Checks pure and readonly function contracts\n\n" ++
  "Usage: puritycheck <COMMAND>\n\n" ++
  "Commands:\n" ++
  "  check    Check every function of a module description\n" ++
  "  explain  Print the built-in classification rules\n" ++
  "  help     Print this message or the help of the given subcommand(s)\n\n" ++
  "Options:\n" ++
  "  -h, --help     Print help\n" ++
  "  -V, --version  Print version\n"

/-- What is wrong with the words. -/
def UsageError.message : UsageError → String
  | .help => helpText
  | .version => versionText
  | .noCommand => helpText
  | .missingArgument => "error: a required argument was not provided\n"
  | .unknownArgument => "error: unexpected argument found\n"
  | .unknownCommand => "error: unrecognized subcommand\n"
  | .invalidValue => "error: a value is required or not one of the possible values\n"
  | .invalidNumber => "error: invalid number\n"
  | .repeated => "error: an argument cannot be used multiple times\n"
  | .unwantedValue => "error: unexpected value for an argument that takes none\n"

/-- What the command line changes of the settings. -/
def Command.overrides : Command → Overrides
  | .check o => { disable := o.disable, names := o.names, noParallel := o.noParallel }
  | .explain _ => {}

namespace Args

/-! ## Options -/

/-- An option with a value, or the place of the module. -/
inductive Target
  | module
  | config
  | format
  | output
  | names
  | jobs
  deriving DecidableEq, Repr

/-- An option without a value. -/
inductive Flag
  | disable
  | noParallel
  | verbose
  | help
  deriving DecidableEq, Repr

/-- An option of a command. -/
inductive Choice
  | target (target : Target)
  | flag (flag : Flag)
  deriving DecidableEq, Repr

/-- The options of a command by their long and by their short names. -/
structure Grammar where
  long : List (String × Choice)
  short : List (Char × Choice)
  /-- Whether a module is named. -/
  takesModule : Bool

/-- The options of `check`. -/
def checkGrammar : Grammar where
  long :=
    [("config", .target .config), ("format", .target .format), ("output", .target .output),
      ("disable", .flag .disable), ("pure-function-names", .target .names),
      ("no-parallel", .flag .noParallel), ("jobs", .target .jobs), ("verbose", .flag .verbose),
      ("help", .flag .help)]
  short :=
    [('c', .target .config), ('f', .target .format), ('o', .target .output), ('j', .target .jobs),
      ('v', .flag .verbose), ('h', .flag .help)]
  takesModule := true

/-- The options of `explain`. -/
def explainGrammar : Grammar where
  long := [("config", .target .config), ("help", .flag .help)]
  short := [('c', .target .config), ('h', .flag .help)]
  takesModule := false

/-- What has been given so far. -/
structure Given where
  module : Option String := none
  config : Option String := none
  format : Option OutputFormat := none
  output : Option String := none
  names : Option String := none
  jobs : Option Nat := none
  disable : Bool := false
  noParallel : Bool := false
  verbosity : Nat := 0

/-- A path, which is not empty. -/
def pathValue (s : String) : Except UsageError String :=
  if s = "" then .error .invalidValue else .ok s

/-- A form of output by its word. -/
def formatValue (s : String) : Except UsageError OutputFormat :=
  if s = "json" then .ok .json else if s = "terminal" then .ok .terminal else .error .invalidValue

/-- A number of workers that fits 64 bits. A plus may stand in front. -/
def jobsValue (s : String) : Except UsageError Nat :=
  let digits := match s.toList with
    | '+' :: cs => cs
    | cs => cs
  let n := Nat.ofDigitChars 10 digits 0
  if !digits.isEmpty && digits.all Char.isDigit && n < UInt64.size then .ok n else .error .invalidNumber

/-- A value in a place that must still be free. -/
def fresh {α : Type} (before : Option α) (value : Except UsageError α) :
    Except UsageError (Option α) :=
  match before with
  | some _ => .error .repeated
  | none => value.map some

/-- Takes the value of an option. An option that got none, or that was given before, is refused
first. -/
def Given.set (g : Given) (target : Target) (value : Option String) : Except UsageError Given :=
  match value with
  | none => .error .invalidValue
  | some s =>
    match target with
    | .module => (fresh g.module (pathValue s)).map fun module => { g with module }
    | .config => (fresh g.config (pathValue s)).map fun config => { g with config }
    | .format => (fresh g.format (formatValue s)).map fun format => { g with format }
    | .output => (fresh g.output (pathValue s)).map fun output => { g with output }
    | .names => (fresh g.names (.ok s)).map fun names => { g with names }
    | .jobs => (fresh g.jobs (jobsValue s)).map fun jobs => { g with jobs }

/-- Takes a flag. Only the one for verbosity may be repeated; it counts up to 255. -/
def Given.raise (g : Given) : Flag → Except UsageError Given
  | .disable => if g.disable then .error .repeated else .ok { g with disable := true }
  | .noParallel => if g.noParallel then .error .repeated else .ok { g with noParallel := true }
  | .verbose => .ok { g with verbosity := min (g.verbosity + 1) 255 }
  | .help => .error .help

/-! ## Reading the words of a command -/

/-- An option that has been named, with its value if that has come. It is looked at only when the
next word that is understood comes along. -/
structure Pending where
  target : Target
  value : Option String

/-- A command line on the way. -/
structure State where
  given : Given := {}
  pending : Option Pending := none
  /-- Whether all words from here on are plain. -/
  plain : Bool := false

/-- Takes the pending option. -/
def State.settle (s : State) : Except UsageError State :=
  match s.pending with
  | none => .ok s
  | some p => (s.given.set p.target p.value).map fun given => { s with given, pending := none }

/-- Takes a flag, after the pending option. -/
def State.raise (s : State) (flag : Flag) : Except UsageError State := do
  let s ← s.settle
  let given ← s.given.raise flag
  return { s with given }

/-- Takes an option, after the pending one. A value that is attached is looked at right away. -/
def State.name (s : State) (target : Target) (attached : Option String) :
    Except UsageError State := do
  let s ← s.settle
  match attached with
  | some v =>
    let given ← s.given.set target (some v)
    return { s with given }
  | none => return { s with pending := some ⟨target, none⟩ }

/-- Takes a plain word: the value of the pending option if it waits for one, else the module. -/
def State.word (g : Grammar) (s : State) (w : String) : Except UsageError State :=
  match s.pending, s.plain with
  | some ⟨target, none⟩, false => .ok { s with pending := some ⟨target, some w⟩ }
  | pending, _ =>
    let named := s.given.module.isSome || (pending.map (·.target)) = some .module
    if g.takesModule && !named then do
      let s ← s.settle
      return { s with pending := some ⟨.module, some w⟩ }
    else .error .unknownArgument

/-- Takes a word that starts with two dashes, from behind them. -/
def State.long (g : Grammar) (s : State) (cs : List Char) : Except UsageError State :=
  let name := String.ofList (cs.takeWhile (· ≠ '='))
  let attached := match cs.dropWhile (· ≠ '=') with
    | [] => none
    | _ :: v => some (String.ofList v)
  match g.long.lookup name, attached with
  | none, _ => .error .unknownArgument
  | some (.target t), v => s.name t v
  | some (.flag f), none => s.raise f
  | some (.flag _), some _ => .error .unwantedValue

/-- Takes the letters of a word that starts with one dash. An option takes all that is behind it
as its value, less an equals sign. -/
def State.short (g : Grammar) (s : State) : List Char → Except UsageError State
  | [] => .ok s
  | c :: cs =>
    match g.short.lookup c with
    | none => .error .unknownArgument
    | some (.flag f) => do (← s.raise f).short g cs
    | some (.target t) =>
      match cs with
      | [] => s.name t none
      | '=' :: v => s.name t (some (String.ofList v))
      | v => s.name t (some (String.ofList v))

/-- Takes a word. -/
def State.take (g : Grammar) (s : State) (w : String) : Except UsageError State :=
  if s.plain then s.word g w
  else
    match w.toList with
    | ['-', '-'] => .ok { s with plain := true }
    | '-' :: '-' :: cs => s.long g cs
    | ['-'] => s.word g w
    | '-' :: cs => s.short g cs
    | _ => s.word g w

/-- All that is given by the words of a command. -/
def Given.ofWords (g : Grammar) (words : List String) : Except UsageError Given := do
  let s ← words.foldlM (State.take g) {}
  let s ← s.settle
  return s.given

/-! ## Commands -/

/-- The command `check`. Trusted names may also come from the environment. -/
def parseCheck (env : Option String) (words : List String) : Except UsageError Command := do
  let g ← Given.ofWords checkGrammar words
  match g.module with
  | none => .error .missingArgument
  | some module =>
    return .check {
      module
      config := g.config
      format := g.format.getD .terminal
      output := g.output
      disable := g.disable
      names := g.names.or env
      noParallel := g.noParallel
      jobs := g.jobs.getD 0
      verbosity := g.verbosity }

/-- The command `explain`. -/
def parseExplain (words : List String) : Except UsageError Command := do
  let g ← Given.ofWords explainGrammar words
  return .explain g.config

/-- The commands by name. -/
def commandNames : List String := ["check", "explain", "help"]

/-- The answer to `help`, which may name one command. -/
def parseHelp : List String → UsageError
  | [] => .help
  | [name] => if commandNames.contains name then .help else .unknownCommand
  | _ => .unknownCommand

/-- The answer to letters behind a dash where a command should stand. -/
def topLetters : List Char → UsageError
  | 'h' :: _ => .help
  | 'V' :: _ => .version
  | _ => .unknownArgument

/-- The answer to a name behind two dashes where a command should stand. -/
def topName (cs : List Char) : UsageError :=
  let name := String.ofList (cs.takeWhile (· ≠ '='))
  if name = "help" || name = "version" then
    if cs.contains '=' then .unwantedValue else if name = "help" then .help else .version
  else .unknownArgument

/-- The answer to words behind two dashes where a command should stand. -/
def topPlain : List String → UsageError
  | [] => .noCommand
  | w :: _ => if commandNames.contains w then .unknownArgument else .unknownCommand

/-- Reads a command line. -/
def parse (env : Option String) : List String → Except UsageError Command
  | [] => .error .noCommand
  | "check" :: words => parseCheck env words
  | "explain" :: words => parseExplain words
  | "help" :: words => .error (parseHelp words)
  | w :: words =>
    match w.toList with
    | ['-', '-'] => .error (topPlain words)
    | '-' :: '-' :: cs => .error (topName cs)
    | ['-'] => .error .unknownCommand
    | '-' :: cs => .error (topLetters cs)
    | _ => .error .unknownCommand

end Args

end Purity
