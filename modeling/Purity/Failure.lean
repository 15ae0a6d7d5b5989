-- What can go wrong in a run.
import Purity.Json.Problem
import Purity.Level

namespace Purity

/-- Why a run fails. -/
inductive Failure
  /-- A file could not be read or written. -/
  | disk (message : String)
  /-- The text of a module does not describe one. -/
  | badModule (path : String) (cause : Json.ReadError)
  | badConfig (detail : String)
  /-- A suggestion was asked for a level that none can be made for. -/
  | noSuggestion (id : String) (level : Level)
  /-- Told by the system in its own words. -/
  | system (text : String)
  /-- A failure with what was being done when it came up. -/
  | within (context message : String)
  deriving DecidableEq

namespace Failure

/-- The message of a failure. -/
def message : Failure → String
  | .disk message => "File system error: " ++ message
  | .badModule path (.problem p) => "Invalid module " ++ path ++ ": " ++ p.message
  | .badModule path (.fault _) => "Invalid module " ++ path
  | .badConfig detail => "Configuration error: " ++ detail
  | .noSuggestion id level =>
    "Internal consistency failure in " ++ id ++ ": unexpected inferred level " ++ level.title ++
      " for a suggestion"
  | .system text => text
  | .within context message => context ++ ": " ++ message

/-- Says what was being done. -/
def addContext (f : Failure) (context : String) : Failure := .within context f.message

/-- Whether the failure is the program's own fault. -/
def isInternal : Failure → Bool
  | .noSuggestion _ _ => true
  | _ => false

end Failure

end Purity
