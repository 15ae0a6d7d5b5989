-- Files and directories as a value.
import Purity.Host
import Purity.Path

namespace Purity

/-- What stands under a path: a directory, or a file. A file that cannot be read, or is not text, has
no text. -/
inductive Entry
  | folder
  | file (text : Option String)
  deriving DecidableEq, Repr

/-- Why a path cannot be read or written. -/
inductive DiskError
  | absent
  | notFolder
  | isFolder
  | notText
  /-- No file can have that name or that path. -/
  | badName
  /-- The file may not be opened to be written. -/
  | locked
  /-- The file does not take all of the text. -/
  | full
  deriving DecidableEq, Repr

/-- The entries of a disk by the names on the way to them. The folders on the way need no entries
of their own. -/
structure Disk where
  entries : List (List String × Entry)
  deriving DecidableEq, Repr

namespace Disk

/-- What stands at the end of a way. The start is a folder. -/
def get? (d : Disk) (way : List String) : Option Entry :=
  match d.entries.lookup way with
  | some e => some e
  | none =>
    if way.isEmpty || d.entries.any (fun e => way.isPrefixOf e.1) then some .folder else none

/-- Puts an entry at the end of a way. -/
def set (d : Disk) (way : List String) (e : Entry) : Disk :=
  ⟨(way, e) :: d.entries.filter (·.1 ≠ way)⟩

/-- Goes a step. Only a folder can be left, and dots lead to itself and the folder above. -/
def step (d : Disk) (way : List String) (name : String) : Except DiskError (List String) :=
  match d.get? way with
  | none => .error .absent
  | some (.file _) => .error .notFolder
  | some .folder =>
    if name = "" || name = "." then .ok way
    else if name = ".." then .ok way.dropLast
    else if 255 < name.utf8ByteSize then .error .badName
    else .ok (way ++ [name])

/-- The names of a path between its slashes. -/
def pieces (path : String) : List String := (path.toList.splitOn '/').map String.ofList

/-- Where a path starts: at the top, or in the folder that one is in. -/
def origin (cwd : List String) (path : String) : List String :=
  if path.toList.head? = some '/' then [] else cwd

/-- All ways that a path leads through for one who stands in the folder `cwd`, files or not. -/
def route (cwd : List String) (path : String) : List (List String) :=
  let follow (ways : List (List String)) (name : String) : List (List String) :=
    let way := ways.headD []
    if name = "" || name = "." then ways
    else if name = ".." then way.dropLast :: ways
    else (way ++ [name]) :: ways
  (pieces path).foldl follow [origin cwd path]

/-- Whether a path may be looked up at all: it is shorter than 4096 bytes, and none of them is
zero. -/
def isPath (path : String) : Bool := path.utf8ByteSize < 4096 && !path.toList.contains '\x00'

/-- The way of a path for one who stands in the folder `cwd`. -/
def resolve (d : Disk) (cwd : List String) (path : String) : Except DiskError (List String) :=
  if isPath path then (pieces path).foldlM d.step (origin cwd path) else .error .badName

/-- The text of a file. -/
def read (d : Disk) (cwd : List String) (path : String) : Except DiskError String := do
  let way ← d.resolve cwd path
  match d.get? way with
  | none => .error .absent
  | some .folder => .error .isFolder
  | some (.file none) => .error .notText
  | some (.file (some text)) => .ok text

/-- Opens a file to be written, new or not. It is empty then. -/
def create (d : Disk) (host : Host) (cwd : List String) (path : String) :
    Except DiskError (List String × Disk) := do
  let way ← d.resolve cwd path
  let last := (pieces path).getLast?.getD ""
  if last = "" || last = "." || last = ".." then .error .isFolder
  else
    match d.get? way.dropLast, d.get? way with
    | some .folder, some .folder => .error .isFolder
    | some .folder, _ =>
      if host.opens way then .ok (way, d.set way (.file (some ""))) else .error .locked
    | some (.file _), _ => .error .notFolder
    | none, _ => .error .absent

/-- Writes a text to a file, new or not, and gives the disk after that. The file is opened first. What
it has taken of the text stays there, also when it does not take all. -/
def write (d : Disk) (host : Host) (cwd : List String) (path text : String) :
    Except DiskError Unit × Disk :=
  match d.create host cwd path with
  | .error e => (.error e, d)
  | .ok (way, opened) =>
    let room := host.fileRoom way
    (if Host.fits room text then .ok () else .error .full,
      opened.set way (.file (Host.kept room text)))

end Disk

end Purity
