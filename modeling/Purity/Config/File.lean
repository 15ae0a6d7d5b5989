-- Settings in files: their form, and which file counts.
import Purity.Config
import Purity.Disk
import Purity.Failure
import Purity.Json.Record
import Purity.Log
import Purity.Toml.Document

namespace Purity

/-! ## As TOML -/

namespace Toml

mutual

/-- Whether all numbers of a value have values. -/
def Value.isLegible : Value → Bool
  | .illegible => false
  | .array _ items => allLegible items
  | .table _ entries => entriesLegible entries
  | .string _ => true
  | .integer _ => true
  | .float _ => true
  | .bool _ => true
  | .date => true

/-- Whether the numbers of all values have values. -/
def allLegible : List Value → Bool
  | [] => true
  | v :: vs => v.isLegible && allLegible vs

/-- Whether the numbers of all entries have values. -/
def entriesLegible : List (String × Value) → Bool
  | [] => true
  | (_, v) :: es => v.isLegible && entriesLegible es

end

/-- A truth value. -/
def Value.bool? : Value → Option Bool
  | .bool b => some b
  | _ => none

/-- A string. -/
def Value.string? : Value → Option String
  | .string s => some s
  | _ => none

/-- A list of strings. -/
def Value.strings? : Value → Option (List String)
  | .array _ items => items.mapM Value.string?
  | _ => none

end Toml

namespace Config

/-- A setting, if it is given. -/
def given {α : Type} (read : Toml.Value → Option α) (default : α) : Option Toml.Value → Option α
  | none => some default
  | some v => read v

/-- Reads three settings. -/
def ofValues? (enabled names parallel : Option Toml.Value) : Option Config := do
  let enabled ← given Toml.Value.bool? true enabled
  let names ← given Toml.Value.strings? [] names
  let parallel ← given Toml.Value.bool? true parallel
  some { enabled, names, parallel }

/-- The words for the settings. -/
def keys : List String := ["enabled", "pure_function_names", "parallel"]

/-- Reads settings from a table, or from an array that has them in order. A date counts as a table
of things that are not known here. -/
def ofToml? : Toml.Value → Option Config
  | .table _ entries =>
    if Toml.entriesLegible (entries.filter fun e => !keys.contains e.1) then
      ofValues? (entries.lookup "enabled") (entries.lookup "pure_function_names")
        (entries.lookup "parallel")
    else none
  | .array _ items => ofValues? items[0]? items[1]? items[2]?
  | .date => some {}
  | _ => none

/-- Reads the settings of a document, which stand under `purity`. -/
def ofDocument? (doc : Toml.Table) : Option Config :=
  if Toml.entriesLegible (doc.entries.filter (·.1 ≠ "purity")) then
    given ofToml? {} (doc.get? "purity")
  else none

/-- Reads and trims the settings of a text. -/
def parse (text : String) : Except Failure Config :=
  match (Toml.parse text).bind ofDocument? with
  | some c => .ok c.normalize
  | none => .error (.badConfig "Failed to parse .puritycheck.toml")

/-! ## As JSON -/

open Json in
/-- The fields of the settings. -/
def fields : Fields [Bool, List String, Bool] :=
  .cons (.defaulted "enabled" truth true) <|
  .cons (.defaulted "pure_function_names" (list text) []) <|
  .cons (.defaulted "parallel" truth true) .nil

/-- The settings. -/
def read : Json.Reader Config :=
  Json.record "struct PurityConfig" fields fun (enabled, names, parallel, ()) =>
    { enabled, names, parallel }

/-- The settings as an object. -/
def toJson (c : Config) : Json :=
  .object [("enabled", .bool c.enabled), ("pure_function_names", .strings c.names),
    ("parallel", .bool c.parallel)]

/-! ## On disk -/

/-- The name of files with settings. -/
def fileName : String := ".puritycheck.toml"

/-- How many directories are searched. -/
def searchDepth : Nat := 10

/-- The settings of a file that somebody asked for. -/
def load (d : Disk) (cwd : List String) (path : String) : Except Failure Config :=
  match d.read cwd path with
  | .error _ => .error (.disk "Failed to read config file")
  | .ok text => parse text

/-- What is noted of settings that were read. -/
def loadNote (path : String) : Note := ⟨.debug, "Loaded config from " ++ path⟩

/-- Looks for settings in one file. Where no text can be read the search goes on; a text that
cannot be understood ends it with the usual settings. -/
def tryLoad (d : Disk) (cwd : List String) (path : String) : Option Config × List Note :=
  match d.read cwd path with
  | .error .absent => (none, [])
  | .error _ => (none, [⟨.warn, "Failed to read config file " ++ path⟩])
  | .ok text =>
    match parse text with
    | .ok c => (some c, [loadNote path])
    | .error f => (some {}, [⟨.warn, f.message ++ " (" ++ path ++ "). Using defaults."⟩])

/-- The settings of the first of some files that has any. -/
def search (d : Disk) (cwd : List String) : List String → Config × List Note
  | [] =>
    ({}, [⟨.debug, "No config found after checking " ++ toString searchDepth ++
      " directories. Using default config."⟩])
  | path :: paths =>
    match tryLoad d cwd path with
    | (some c, notes) => (c, notes)
    | (none, notes) =>
      let (c, more) := search d cwd paths
      (c, notes ++ more)

/-- The files that may hold the settings of a directory, the nearest first. -/
def candidates (start : String) : List String :=
  (Path.ancestors searchDepth start).map fun dir => Path.join dir fileName

/-- The settings that hold in a directory: those of the nearest file in it or above it. -/
def discover (d : Disk) (cwd : List String) (start : String) : Config × List Note :=
  search d cwd (candidates start)

end Config

end Purity
