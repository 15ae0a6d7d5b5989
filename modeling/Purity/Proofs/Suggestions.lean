-- The laws of following suggestions. A suggestion names a contract. With that contract in front of
-- its other marks, a function declares the level that its body supports, so a second check has
-- nothing more to suggest, and whatever was a warning is still the same warning.
import Purity.Proofs.Account

namespace Purity

/-! ## Following a suggestion -/

/-- The contract that states a level. There is none for the weakest. -/
def Level.statement : Level → List Mark
  | .pure => [.contractPure]
  | .readonly => [.contractReadonly]
  | .none => []

/-- The signature with the contract of a level in front of its marks. -/
def Signature.stating (s : Signature) (l : Level) : Signature :=
  { s with marks := l.statement ++ s.marks }

/-- The function with the contract of a level in front of its marks. -/
def Decl.stating (decl : Decl) (l : Level) : Decl :=
  { decl with signature := decl.signature.stating l }

namespace Table

/-- The function with the contract that its check suggests, if it suggests one. -/
def follow (t : Table) (file : SourceFile) (decl : Decl) : Decl :=
  match t.report? (file, decl) with
  | some report => if report.suggested then decl.stating report.inferred else decl
  | none => decl

/-- The file with the contracts that the checks of its functions suggest. -/
def followFile (t : Table) (file : SourceFile) : SourceFile :=
  { file with decls := file.decls.map (t.follow file) }

/-- The module with the contracts that the checks of its functions suggest. -/
def followAll (t : Table) (m : Module) : Module := { m with files := m.files.map t.followFile }

end Table

/-! ## The stated level -/

namespace Mark

variable {m : Mark} {name key : String} (marks : List Mark)

/-- The first mark that has a flag decides. -/
theorem flag?_cons_of_flag {value : Bool} (hname : m.name = name)
    (h : m.arguments.get? key = some (.flag value)) : flag? (m :: marks) name key = some value := by
  simp [flag?, hname, h]

/-- A mark without the argument is passed over. -/
theorem flag?_cons_of_none (h : m.arguments.get? key = none) :
    flag? (m :: marks) name key = flag? marks name key := by
  by_cases hname : m.name = name <;> simp [flag?, hname, h]

/-- The first mark that has a text decides. -/
theorem text?_cons_of_text {value : String} (hname : m.name = name)
    (h : m.arguments.get? key = some (.text value)) : text? (m :: marks) name key = some value := by
  simp [text?, hname, h]

end Mark

namespace Signature

variable (s : Signature)

theorem contractsPure_stating_pure : (s.stating .pure).contractsPure = true :=
  decide_eq_true (Mark.flag?_cons_of_flag s.marks rfl rfl)

/-- A readonly contract does not say whether the function is pure. -/
theorem contractsPure_stating_readonly : (s.stating .readonly).contractsPure = s.contractsPure := by
  have hflag : Mark.flag? (s.stating .readonly).marks contractName "pure" =
      Mark.flag? s.marks contractName "pure" := Mark.flag?_cons_of_none s.marks rfl
  rw [contractsPure, contractsPure, hflag]

theorem contractsReadonly_stating_readonly : (s.stating .readonly).contractsReadonly = true :=
  decide_eq_true (Mark.text?_cons_of_text s.marks rfl rfl)

end Signature

namespace Table

variable {t : Table} {file : SourceFile} {decl : Decl}

theorem declaredLevel_of_contractsPure {s : Signature} (h : s.contractsPure = true) :
    t.declaredLevel s = .pure := by
  simp [declaredLevel, h]

/-- A function that states a level above the one it declared declares the stated level. -/
theorem declaredLevel_stating {s : Signature} {l : Level} (h : t.declaredLevel s < l) :
    t.declaredLevel (s.stating l) = l := by
  cases l with
  | none => exact absurd h (Nat.not_lt_zero _)
  | pure => exact declaredLevel_of_contractsPure s.contractsPure_stating_pure
  | readonly =>
    have hpure : s.contractsPure = false := by
      rw [← Bool.not_eq_true]
      intro hs
      rw [declaredLevel_of_contractsPure hs] at h
      exact absurd h (by decide)
    rw [declaredLevel, s.contractsPure_stating_readonly, hpure,
      s.contractsReadonly_stating_readonly]
    rfl

/-- The level of a body depends neither on the marks of its function nor on what it declares. -/
theorem inferred_judge_stating (h : decl.hasBody = true) (l : Level) :
    (t.judge (decl.stating l)).inferred = (t.judge decl).inferred := by
  obtain ⟨body, hb⟩ := Option.isSome_iff_exists.mp h
  have hb' : (decl.stating l).body = some body := hb
  rw [judge, judge, classify_eq hb, classify_eq hb']
  rfl

/-! ## The second check -/

/-- A check reads the path and the lines of the file, not its other functions. -/
theorem check_followFile (t : Table) (file : SourceFile) (decl : Decl) :
    t.check (t.followFile file) decl = t.check file decl := rfl

/-- Once it states the level of its body, a function is checked in silence. -/
theorem check_stating (h : decl.hasBody = true)
    (hlt : t.declaredLevel decl.signature < (t.judge decl).inferred) :
    t.check file (decl.stating (t.judge decl).inferred) =
      .ok ⟨some { t.reportOf decl 0 false with declared := (t.judge decl).inferred }, []⟩ := by
  have hb : (decl.stating (t.judge decl).inferred).hasBody = true := h
  have hinferred := inferred_judge_stating (t := t) h (t.judge decl).inferred
  have hdeclared : t.declaredLevel (decl.stating (t.judge decl).inferred).signature =
      (t.judge decl).inferred := declaredLevel_stating hlt
  rw [check_of_silent hb (.inl (hinferred.trans hdeclared.symm)), reportOf, hinferred, hdeclared]
  rfl

end Table

/-- The report of the second check: what was suggested is declared. -/
def FunctionReport.settled (r : FunctionReport) : FunctionReport :=
  if r.suggested then { r with declared := r.inferred, suggested := false } else r

namespace Table

theorem told_followFile (t : Table) (file : SourceFile) (decl : Decl) :
    t.told (t.followFile file, decl) = t.told (file, decl) := by
  rw [told, check_followFile]
  rfl

theorem report?_followFile (t : Table) (file : SourceFile) (decl : Decl) :
    t.report? (t.followFile file, decl) = t.report? (file, decl) := by
  rw [report?, outcome, check_followFile]
  rfl

/-- A function whose suggestion is followed is told its warnings again and nothing else, and its
report has what was suggested as declared. -/
theorem second_check (t : Table) (d : SourceFile × Decl) :
    t.told (t.followFile d.1, t.follow d.1 d.2) = (t.told d).filter (·.severity = .warning) ∧
      t.report? (t.followFile d.1, t.follow d.1 d.2) = (t.report? d).map (·.settled) := by
  rw [told_followFile, report?_followFile]
  rcases t.told_cases d with ⟨_, hr, ht⟩ | ⟨r, _, hr, hw, _, hs⟩ | ⟨x, hb, hlt, hr, ht, hx⟩
  · have hfollow : t.follow d.1 d.2 = d.2 := by
      rw [follow, hr]
    rw [hfollow, ht, hr]
    exact ⟨rfl, rfl⟩
  · have hfollow : t.follow d.1 d.2 = d.2 := by
      simp [follow, hr, hs]
    rw [hfollow, hr, List.filter_eq_self.mpr (by simpa using hw)]
    simp [FunctionReport.settled, hs]
  · have hfollow : t.follow d.1 d.2 = d.2.stating (t.judge d.2).inferred := by
      rw [follow, hr]
      rfl
    rw [hfollow, told, report?, outcome, check_stating hb hlt, hr, ht]
    simp [hx, FunctionReport.settled, reportOf, Session.diagnosticsOf, Except.map]

theorem functions_followAll (t : Table) (m : Module) :
    (t.followAll m).functions = m.functions.map fun d => (t.followFile d.1, t.follow d.1 d.2) := by
  unfold Module.functions
  rw [List.map_flatMap, followAll, List.flatMap_map]
  refine List.flatMap_congr fun file _ => ?_
  rw [followFile, List.map_map, List.map_map]
  rfl

end Table

namespace Checker

variable {c : Config} (m : Module) (turns turns' : List Nat)

/-- The second check tells of each function what was a warning before. -/
theorem interleaves_followAll (h : c.enabled = true) :
    Interleaves (m.functions.map fun d => (c.table.told d).filter (·.severity = .warning))
      ((ofConfig c).run (c.table.followAll m) turns).diagnostics := by
  have hparts : (c.table.followAll m).functions.map c.table.told =
      m.functions.map fun d => (c.table.told d).filter (·.severity = .warning) := by
    rw [Table.functions_followAll, List.map_map]
    exact List.map_congr_left fun d _ => (c.table.second_check d).1
  rw [← hparts]
  exact interleaves_run (c.table.followAll m) turns h

/-- The warnings of the first check. -/
theorem interleaves_warnings (h : c.enabled = true) :
    Interleaves (m.functions.map fun d => (c.table.told d).filter (·.severity = .warning))
      (((ofConfig c).run m turns).diagnostics.filter (·.severity = .warning)) := by
  have hrun := (interleaves_run m turns h).filter (·.severity = .warning)
  rwa [List.map_map] at hrun

theorem run_followAll_diagnostics (h : c.enabled = true)
    (horder : c.parallel = false ∨ turns = []) (horder' : c.parallel = false ∨ turns' = []) :
    ((ofConfig c).run (c.table.followAll m) turns').diagnostics =
      ((ofConfig c).run m turns).diagnostics.filter (·.severity = .warning) := by
  rw [run_diagnostics _ _ h horder, run_diagnostics _ _ h horder', Table.functions_followAll,
    List.flatMap_map, List.filter_flatMap]
  exact List.flatMap_congr fun d _ => (c.table.second_check d).1

theorem run_followAll_functions (h : c.enabled = true) :
    ((ofConfig c).run (c.table.followAll m) turns').report.functions =
      ((ofConfig c).run m turns).report.functions.map (·.settled) := by
  rw [run_report _ _ h, run_report _ _ h, Table.functions_followAll, List.filterMap_map,
    List.map_filterMap]
  exact List.filterMap_congr fun d _ => (c.table.second_check d).2

end Checker

/-! ## The law -/

/-- Suggestions are settled in one round, whatever turns the visits take in either check. Once each
function has the contract that was suggested for it, in front of its other marks, a check suggests
nothing and warns as before: in the same order where the visits are made in order, and otherwise
with the warnings of each function in the same order. The level of each body is as it was, and a
function that was given a contract declares that level. -/
theorem suggestions_are_settled_in_one_round (c : Config) (m : Module) (turns turns' : List Nat)
    (h : c.enabled = true) :
    let before := (Checker.ofConfig c).run m turns
    let after := (Checker.ofConfig c).run (c.table.followAll m) turns'
    let warnings (told : List Diagnostic) := told.filter (·.severity = .warning)
    let parts := m.functions.map fun d => warnings (Session.diagnosticsOf (c.table.check d.1 d.2))
    (∀ x ∈ after.diagnostics, x.severity ≠ .info) ∧
      (c.parallel = false ∨ turns = [] ∧ turns' = [] →
        warnings after.diagnostics = warnings before.diagnostics) ∧
      (warnings after.diagnostics).Perm (warnings before.diagnostics) ∧
      Interleaves parts (warnings before.diagnostics) ∧
      Interleaves parts (warnings after.diagnostics) ∧
      after.report.functions.map (·.inferred) = before.report.functions.map (·.inferred) ∧
      after.report.functions = before.report.functions.map (fun r =>
        if r.suggested then { r with declared := r.inferred, suggested := false } else r) := by
  intro before after warnings parts
  have hbefore : Interleaves parts (warnings before.diagnostics) :=
    Checker.interleaves_warnings m turns h
  have hafter : Interleaves parts after.diagnostics := Checker.interleaves_followAll m turns' h
  have hfunctions : after.report.functions = before.report.functions.map (·.settled) :=
    Checker.run_followAll_functions m turns turns' h
  have hwarning : ∀ x ∈ after.diagnostics, x.severity = .warning := by
    intro x hx
    obtain ⟨part, hpart, hmem⟩ := List.mem_flatten.mp (hafter.perm.mem_iff.mp hx)
    obtain ⟨d, _, rfl⟩ := List.mem_map.mp hpart
    simpa using (List.mem_filter.mp hmem).2
  have hall : warnings after.diagnostics = after.diagnostics :=
    List.filter_eq_self.mpr (by simpa using hwarning)
  refine ⟨?_, ?_, ?_, hbefore, ?_, ?_, hfunctions⟩
  · intro x hx
    simp [hwarning x hx]
  · intro horder
    rw [hall]
    exact Checker.run_followAll_diagnostics m turns turns' h (horder.imp_right And.left)
      (horder.imp_right And.right)
  · rw [hall]
    exact hafter.perm.trans hbefore.perm.symm
  · rw [hall]
    exact hafter
  · rw [hfunctions, List.map_map]
    refine List.map_congr_left fun r _ => ?_
    rw [Function.comp_apply, FunctionReport.settled]
    split <;> rfl

/-- A function that only reads and has a contract that says no more than that it is not pure, a pure
member of a readonly type, and a function that breaks its contract. -/
def unstated : Module :=
  let total : Variable := ⟨"total", "m", true, false⟩
  ⟨"m",
    [⟨"A.kt", [0],
      [⟨"m.peek", ⟨"peek", none, [⟨contractName, Arguments.empty.insert "pure" (.flag false)⟩]⟩, [],
          some (.get 3 total), 0⟩,
        ⟨"m.size", ⟨"size", some ⟨"kotlin.collections.List", .interface⟩, []⟩, [],
          some (.const 5 .null), 4⟩,
        ⟨"m.reset", ⟨"reset", none, [.contractPure]⟩, [],
          some (.set 8 total (.const 9 .null)), 7⟩]⟩]⟩

theorem suggestions_for_unstated_are_settled :
    ({} : Config).enabled = true ∧
      ((Checker.ofConfig {}).run unstated [2, 2, 0, 2]).report.functions =
        [⟨"m.peek", .none, .readonly, false, 0, true⟩, ⟨"m.size", .readonly, .pure, false, 0, true⟩,
          ⟨"m.reset", .pure, .none, false, 1, false⟩] ∧
      ((Checker.ofConfig {}).run ((Config.table {}).followAll unstated) [1, 2]).report.functions =
        [⟨"m.peek", .readonly, .readonly, false, 0, false⟩,
          ⟨"m.size", .pure, .pure, false, 0, false⟩,
          ⟨"m.reset", .pure, .none, false, 1, false⟩] := by
  have hbefore : ((Checker.ofConfig {}).run unstated [2, 2, 0, 2]).report.functions =
      [⟨"m.peek", .none, .readonly, false, 0, true⟩, ⟨"m.size", .readonly, .pure, false, 0, true⟩,
        ⟨"m.reset", .pure, .none, false, 1, false⟩] := by decide
  have hlaw := suggestions_are_settled_in_one_round {} unstated [2, 2, 0, 2] [1, 2] rfl
  refine ⟨rfl, hbefore, ?_⟩
  rw [hlaw.2.2.2.2.2.2, hbefore]
  rfl

/-- Two functions that break their contracts, and one that could have a contract. -/
def broken : Module :=
  let total : Variable := ⟨"total", "m", true, false⟩
  ⟨"m",
    [⟨"A.kt", [0],
      [⟨"m.set", ⟨"set", none, [.contractPure]⟩, [], some (.set 2 total (.const 3 .null)), 1⟩,
        ⟨"m.get", ⟨"get", none, [.contractPure]⟩, [], some (.get 5 total), 4⟩,
        ⟨"m.one", .ofName "one", [], some (.const 7 .null), 6⟩]⟩]⟩

/-- The second check of a module may warn in another order than the first. -/
theorem warnings_for_broken_may_change_order :
    ({} : Config).enabled = true ∧ ({} : Config).parallel = true ∧
      ((Checker.ofConfig {}).run ((Config.table {}).followAll broken)
          (List.replicate 8 1)).diagnostics.filter (·.severity = .warning) ≠
        ((Checker.ofConfig {}).run broken []).diagnostics.filter (·.severity = .warning) := by
  decide

end Purity
