-- The settings of a run.
import Purity.Table

namespace Purity

/-- Whether to check at all, which names to trust, and whether to use several workers. -/
structure Config where
  enabled : Bool := true
  names : List String := []
  parallel : Bool := true
  deriving DecidableEq, Repr

/-- What the command line may change of the settings. -/
structure Overrides where
  disable : Bool := false
  names : Option String := none
  noParallel : Bool := false
  deriving DecidableEq, Repr

/-- The names of a list with commas between them. -/
def splitNames (list : String) : List String :=
  Text.trimAll ((list.toList.splitOn ',').map String.ofList)

namespace Config

/-- The settings with trimmed names, without the empty ones. -/
def normalize (c : Config) : Config := { c with names := Text.trimAll c.names }

/-- The settings as the command line changes them. Names there take the place of those here. -/
def override (c : Config) (o : Overrides) : Config :=
  { enabled := c.enabled && !o.disable
    names := match o.names with
      | some list => splitNames list
      | none => c.names
    parallel := c.parallel && !o.noParallel }

/-- The table that trusts the names. -/
def table (c : Config) : Table := Table.ofNames c.names

end Config

end Purity
