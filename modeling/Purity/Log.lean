-- What a run notes about itself, as data.

namespace Purity

/-- How much a note matters, the most severe first. -/
inductive Volume
  | error
  | warn
  | info
  | debug
  | trace
  deriving DecidableEq, Repr

namespace Volume

/-- The place of a volume, the most severe first. -/
def rank : Volume → Nat
  | .error => 0
  | .warn => 1
  | .info => 2
  | .debug => 3
  | .trace => 4

/-- The word in front of a note. -/
def title : Volume → String
  | .error => "ERROR"
  | .warn => "WARN"
  | .info => "INFO"
  | .debug => "DEBUG"
  | .trace => "TRACE"

/-- The word for a volume on the command line. -/
def key : Volume → String
  | .error => "error"
  | .warn => "warn"
  | .info => "info"
  | .debug => "debug"
  | .trace => "trace"

/-- The volume that a number of verbosity flags asks for. -/
def ofVerbosity : Nat → Volume
  | 0 => .warn
  | 1 => .info
  | 2 => .debug
  | _ => .trace

end Volume

/-- A note of a run. -/
structure Note where
  volume : Volume
  message : String
  deriving DecidableEq, Repr

namespace Note

/-- A note as one line. -/
def text (n : Note) : String := n.volume.title ++ " " ++ n.message

/-- The notes that matter at least as much as `volume`. -/
def upTo (volume : Volume) (notes : List Note) : List Note :=
  notes.filter fun n => n.volume.rank ≤ volume.rank

end Note

end Purity
