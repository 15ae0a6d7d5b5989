-- Checking a function, a session over many functions, and a whole module.
import Purity.Config
import Purity.Report

namespace Purity

/-! ## One function -/

/-- A function that was looked at. Without a body there is no report. -/
structure Checked where
  report : Option FunctionReport
  diagnostics : List Diagnostic
  deriving DecidableEq, Repr

namespace Table

/-- The warnings of a classified function, one per finding. -/
def warnings (file : SourceFile) (decl : Decl) (c : Classification) : List Diagnostic :=
  c.findings.map fun f =>
    ⟨.warning, f.violation.message decl.name c.declared, file.location f.offset, decl.id⟩

/-- Checks a function: a warning for each finding, and a suggestion if its body supports more than
it declares and somebody can mark it. -/
def check (t : Table) (file : SourceFile) (decl : Decl) : Except Failure Checked :=
  if !decl.hasBody then .ok ⟨none, []⟩
  else do
    let declared := t.declaredLevel decl.signature
    let synthesized := decl.signature.isSynthesized
    let c := t.classify decl declared
    let warned := warnings file decl c
    let suggested := c.underClaimed && !synthesized
    let told ←
      if suggested then do
        let message ← suggestion decl.id decl.name c.inferred
        .ok [⟨.info, message, file.location decl.offset, decl.id⟩]
      else .ok []
    return ⟨some ⟨decl.id, declared, c.inferred, synthesized, warned.length, suggested⟩,
      warned ++ told⟩

/-- What is noted while a function is checked. -/
def checkNotes (t : Table) (decl : Decl) : List Note :=
  if decl.hasBody then (t.classify decl (t.declaredLevel decl.signature)).notes decl.id
  else [⟨.trace, "Skipping " ++ decl.id ++ ": no body"⟩]

end Table

/-! ## Sessions -/

/-- How far a session is with a declaration. -/
inductive Progress
  | unvisited
  | visiting
  | skipped
  | classified (level : Level)
  | failed (reason : String)
  deriving DecidableEq, Repr

/-- How far a session is with the declarations that it was asked for, each key once. -/
structure States where
  entries : List (Key × Progress)
  distinct : (entries.map Prod.fst).Nodup

namespace States

/-- Nothing asked for. -/
def empty : States := ⟨[], List.Pairwise.nil⟩

/-- What is known under a key. -/
def get? (states : States) (key : Key) : Option Progress := states.entries.lookup key

/-- Puts what is known under a key in, in place of what was there. -/
def insert (states : States) (key : Key) (progress : Progress) : States :=
  ⟨(key, progress) :: states.entries.filter (·.1 ≠ key), by
    have h := states.distinct.sublist ((List.filter_sublist (p := (·.1 ≠ key))).map Prod.fst)
    exact List.nodup_cons.mpr ⟨by simp, h⟩⟩

end States

/-- A run over declarations. Each is looked at only once. -/
structure Session where
  table : Table
  states : States

/-- What others see of a visit while it goes on: one note or one diagnostic at a time. -/
inductive Event
  | noted (note : Note)
  | told (diagnostic : Diagnostic)

namespace Event

/-- The note, if it is one. -/
def note? : Event → Option Note
  | .noted note => some note
  | .told _ => none

/-- The diagnostic, if it is one. -/
def diagnostic? : Event → Option Diagnostic
  | .noted _ => none
  | .told diagnostic => some diagnostic

end Event

/-- A visit that has begun: what is still to be seen of it, how far the session is with the key at
its end, if the key is its own, and what it returns. -/
structure Pending where
  left : List Event
  settles : Option Progress
  outcome : Except Failure (Option FunctionReport)

/-- What came out of a visit. -/
structure Visit where
  session : Session
  outcome : Except Failure (Option FunctionReport)
  diagnostics : List Diagnostic
  notes : List Note

namespace Session

/-- A session in which nothing has been visited. -/
def start (table : Table) : Session := ⟨table, .empty⟩

/-- How far the session is with a declaration. -/
def progress (s : Session) (key : Key) : Progress := (s.states.get? key).getD .unvisited

/-- The level found for a declaration. -/
def level? (s : Session) (key : Key) : Option Level :=
  match s.progress key with
  | .classified level => some level
  | _ => none

/-- The number of declarations that have been visited. -/
def visitedCount (s : Session) : Nat := s.states.entries.length

/-- The session with new progress under a key. -/
def put (s : Session) (key : Key) (progress : Progress) : Session :=
  { s with states := s.states.insert key progress }

/-- How far one is after a check. -/
def progressOf : Except Failure Checked → Progress
  | .ok ⟨some report, _⟩ => .classified report.inferred
  | .ok ⟨none, _⟩ => .skipped
  | .error f => .failed f.message

/-- What a check has to tell. -/
def diagnosticsOf : Except Failure Checked → List Diagnostic
  | .ok checked => checked.diagnostics
  | .error _ => []

/-- The beginning of a visit: the key is claimed, and the declaration is checked. A key that has been
claimed is not looked at again. -/
def enter (s : Session) (key : Key) (file : SourceFile) (decl : Decl) : Session × Pending :=
  match s.states.get? key with
  | some _ =>
    (s, ⟨[.noted ⟨.trace, decl.id ++ " (" ++ key.text ++ ") already visited in this session"⟩], none,
      .ok none⟩)
  | none =>
    let checked := s.table.check file decl
    (s.put key .visiting,
      ⟨(s.table.checkNotes decl).map .noted ++ (diagnosticsOf checked).map .told,
        some (progressOf checked), checked.map (·.report)⟩)

/-- The end of a visit: the outcome is put down under a key that the visit has claimed. -/
def leave (s : Session) (key : Key) (p : Pending) : Session :=
  match p.settles with
  | some progress => s.put key progress
  | none => s

/-- Visits a declaration under a key, without a break. -/
def visit (s : Session) (key : Key) (file : SourceFile) (decl : Decl) : Visit :=
  let (entered, p) := s.enter key file decl
  ⟨entered.leave key p, p.outcome, p.left.filterMap Event.diagnostic?,
    p.left.filterMap Event.note?⟩

/-- A series of visits: the session after them, the outcome of each, and all that was told and
noted, in order. -/
structure Tour where
  session : Session
  outcomes : List (Key × String × Except Failure (Option FunctionReport))
  diagnostics : List Diagnostic
  notes : List Note

/-- Visits declarations one after the other. -/
def visitAll (s : Session) : List (Key × SourceFile × Decl) → Tour
  | [] => ⟨s, [], [], []⟩
  | (key, file, decl) :: rest =>
    let v := s.visit key file decl
    let tour := v.session.visitAll rest
    ⟨tour.session, (key, decl.id, v.outcome) :: tour.outcomes, v.diagnostics ++ tour.diagnostics,
      v.notes ++ tour.notes⟩

end Session

/-! ## Visits at the same time -/

/-- How far one of many visits is. -/
inductive Stage
  | waiting
  | begun (p : Pending)
  | ended (outcome : Except Failure (Option FunctionReport))

/-- A declaration and how far its visit is. -/
structure Task where
  declaration : Key × SourceFile × Decl
  stage : Stage

/-- Visits at the same time: the session that they share, how far each of them is, and all that was
seen of them so far, under the key of the visit. -/
structure Crew where
  session : Session
  tasks : List Task
  events : List (Key × Event)

namespace Crew

/-- Nothing has begun. -/
def start (s : Session) (ds : List (Key × SourceFile × Decl)) : Crew :=
  ⟨s, ds.map fun d => ⟨d, .waiting⟩, []⟩

/-- One visit goes on by one step: it begins, or has one more thing seen, or ends. The others stay
where they are. -/
def turn (crew : Crew) (i : Nat) : Crew :=
  match crew.tasks[i]? with
  | none => crew
  | some ⟨d, .waiting⟩ =>
    let (s, p) := crew.session.enter d.1 d.2.1 d.2.2
    { crew with session := s, tasks := crew.tasks.set i ⟨d, .begun p⟩ }
  | some ⟨d, .begun ⟨e :: left, settles, outcome⟩⟩ =>
    { crew with
      tasks := crew.tasks.set i ⟨d, .begun ⟨left, settles, outcome⟩⟩
      events := crew.events ++ [(d.1, e)] }
  | some ⟨d, .begun ⟨[], settles, outcome⟩⟩ =>
    { crew with
      session := crew.session.leave d.1 ⟨[], settles, outcome⟩
      tasks := crew.tasks.set i ⟨d, .ended outcome⟩ }
  | some ⟨_, .ended _⟩ => crew

end Crew

namespace Session

/-- What is left of a visit. -/
def rest (s : Session) (task : Task) : Session × Pending :=
  match task.stage with
  | .waiting => s.enter task.declaration.1 task.declaration.2.1 task.declaration.2.2
  | .begun p => (s, p)
  | .ended outcome => (s, ⟨[], none, outcome⟩)

/-- Brings visits to their ends, one after the other. -/
def finish (s : Session) : List Task →
    Session × List (Key × String × Except Failure (Option FunctionReport)) × List (Key × Event)
  | [] => (s, [], [])
  | task :: tasks =>
    let key := task.declaration.1
    let (s, p) := s.rest task
    let (s, outcomes, events) := (s.leave key p).finish tasks
    (s, (key, task.declaration.2.2.id, p.outcome) :: outcomes,
      p.left.map (fun e => (key, e)) ++ events)

/-- Visits declarations at the same time. The visits take the given turns, each the place of the one
that goes on, and those that have not ended then end in order, so that every list of turns is a
complete run. The outcomes are in the order of the declarations. -/
def visitTogether (s : Session) (turns : List Nat) (ds : List (Key × SourceFile × Decl)) : Tour :=
  let crew := turns.foldl Crew.turn (.start s ds)
  let (s, outcomes, events) := crew.session.finish crew.tasks
  let seen := (crew.events ++ events).map Prod.snd
  ⟨s, outcomes, seen.filterMap Event.diagnostic?, seen.filterMap Event.note?⟩

end Session

/-! ## Modules -/

/-- The report of a visit that has one. -/
def reportOf? (visit : Key × String × Except Failure (Option FunctionReport)) :
    Option FunctionReport :=
  match visit.2.2 with
  | .ok report => report
  | .error _ => none

/-- The failure of a visit that failed. -/
def failureOf? (visit : Key × String × Except Failure (Option FunctionReport)) :
    Option FunctionFailure :=
  match visit.2.2 with
  | .ok _ => none
  | .error f => some ⟨visit.2.1, f.message⟩

/-- Whether a visit gave no report, and the session knows that there is none to give. -/
def wasSkipped (s : Session) (visit : Key × String × Except Failure (Option FunctionReport)) : Bool :=
  match visit.2.2 with
  | .ok none => s.progress visit.1 = .skipped
  | _ => false

/-- The report of a module from the visits of its declarations. -/
def ModuleReport.ofTour (tour : Session.Tour) : ModuleReport :=
  ⟨tour.outcomes.filterMap reportOf?, tour.outcomes.countP (wasSkipped tour.session),
    tour.outcomes.filterMap failureOf?⟩

/-- A checker for modules. -/
structure Checker where
  table : Table
  enabled : Bool
  parallel : Bool

/-- A checked module: its report, all that was told, in the order in which it came, and all that
was noted. -/
structure Run where
  report : ModuleReport
  diagnostics : List Diagnostic
  notes : List Note

namespace Checker

/-- The checker with the given settings. -/
def ofConfig (c : Config) : Checker := ⟨c.table, c.enabled, c.parallel⟩

/-- What is noted when a table is made. -/
def tableNote (t : Table) : Note :=
  ⟨.debug, "Classification table built with " ++ toString t.trusted.length ++
    " trusted pure functions"⟩

/-- Checks a module. The declarations are visited in order, or all at the same time: the turns that
the visits then take are up to the workers. -/
def run (c : Checker) (m : Module) (turns : List Nat := []) : Run :=
  if !c.enabled then
    ⟨.empty, [], [⟨.info, "Purity checking disabled; skipping module " ++ m.name⟩]⟩
  else
    let declarations := m.declarations
    let session := Session.start c.table
    let tour := if c.parallel then session.visitTogether turns declarations
      else session.visitAll declarations
    ⟨.ofTour tour, tour.diagnostics,
      ⟨.debug, "Checking " ++ toString declarations.length ++ " functions in module " ++ m.name ++
        " (" ++ (if c.parallel then "parallel" else "sequential") ++ ")"⟩ :: tour.notes⟩

/-- All that checking a module tells, in order. -/
def output (c : Checker) (m : Module) (turns : List Nat := []) : CheckOutput :=
  let run := c.run m turns
  ⟨m.name, Diagnostic.sort run.diagnostics, run.report⟩

end Checker

end Purity
