-- The program: takes what a command may look at from the real disk, runs it, and prints and writes
-- what comes of it.
import Purity.Command

namespace Purity.Program

/-- The variable of the environment that may name trusted functions. -/
def namesVariable : String := "PURITYCHECK_PURE_FUNCTION_NAMES"

/-- What stands at the end of a way on the real disk. -/
def look (way : List String) : IO (Option Entry) := do
  let some real ← (try return some (← IO.FS.realPath (Command.folderPath way)) catch _ => return none)
    | return none
  if ← real.isDir then return some .folder
  else if ← real.pathExists then
    try return some (.file (String.fromUTF8? (← IO.FS.readBinFile real)))
    catch _ => return some (.file none)
  else return none

/-- The part of the real disk that some paths lead through. -/
def snapshot (cwd : List String) (paths : List String) : IO Disk := do
  let ways := (paths.flatMap (Disk.route cwd)).eraseDups
  let entries ← ways.filterMapM fun way => do return (← look way).map fun entry => (way, entry)
  return ⟨entries⟩

/-- Writes the file that a run has made to the real disk. -/
def store (cwd : List String) (o : Outcome) (c : Command) : IO Unit := do
  match c with
  | .check { output := some path, .. } =>
    match o.disk.read cwd path with
    | .ok text => IO.FS.writeFile path text
    | .error _ => return
  | _ => return

/-- Runs a command and gives its exit code. -/
def execute (c : Command) : IO UInt32 := do
  let out ← IO.getStdout
  let err ← IO.getStderr
  let cwd := (Disk.pieces (← IO.currentDir).toString).filter (· ≠ "")
  let d ← snapshot cwd (c.paths cwd)
  let color ← out.isTty
  for note in Note.upTo c.volume (c.notes d cwd) do
    err.putStrLn note.text
  let outcome := c.run d cwd color
  out.putStr outcome.printed
  out.flush
  match outcome.stop with
  | some s => err.putStrLn ("Error: " ++ s.message)
  | none => store cwd outcome c
  return UInt32.ofNat outcome.exitCode

end Purity.Program

def main (args : List String) : IO UInt32 := do
  match Purity.Args.parse (← IO.getEnv Purity.Program.namesVariable) args with
  | .ok command => Purity.Program.execute command
  | .error e =>
    let stream ← if e.exitCode = 0 then IO.getStdout else IO.getStderr
    stream.putStr e.message
    return UInt32.ofNat e.exitCode
