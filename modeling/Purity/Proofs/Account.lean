-- The laws of checking a module. Every declaration is accounted for: it has a report if it has a
-- body, and is counted as skipped if not. What the report counts is what was told.
import Purity.Proofs.Workers
import Purity.Rendering

namespace Purity

/-! ## What is told of one function, and what is reported -/

namespace Table

/-- The report of a function, if it has a body. -/
def report? (t : Table) (d : SourceFile × Decl) : Option FunctionReport :=
  match t.outcome d with
  | .ok report => report
  | .error _ => none

theorem told_of_check {t : Table} {d : SourceFile × Decl} {checked : Checked}
    (h : t.check d.1 d.2 = .ok checked) : t.told d = checked.diagnostics := by
  rw [told, h]
  rfl

theorem report?_of_check {t : Table} {d : SourceFile × Decl} {checked : Checked}
    (h : t.check d.1 d.2 = .ok checked) : t.report? d = checked.report := by
  rw [report?, outcome, h]
  rfl

/-- A check does not fail, so it returns the report, or that there is none. -/
theorem outcome_eq (t : Table) (d : SourceFile × Decl) : t.outcome d = .ok (t.report? d) := by
  rcases t.check_cases d.1 d.2 with ⟨_, hc⟩ | ⟨_, _, hc⟩ | ⟨_, _, _, hc⟩ | ⟨_, _, hc⟩
  all_goals
    rw [report?_of_check hc, outcome, hc]
    rfl

/-- A function without a body is passed over. A function with one is reported: either all that it is
told are its warnings, or it is told one suggestion. -/
theorem told_cases (t : Table) (d : SourceFile × Decl) :
    (d.2.hasBody = false ∧ t.report? d = none ∧ t.told d = []) ∨
    (∃ r, d.2.hasBody = true ∧ t.report? d = some r ∧ (∀ x ∈ t.told d, x.severity = .warning) ∧
      r.warnings = (t.told d).length ∧ r.suggested = false) ∨
    (∃ x, d.2.hasBody = true ∧ t.declaredLevel d.2.signature < (t.judge d.2).inferred ∧
      t.report? d = some (t.reportOf d.2 0 true) ∧ t.told d = [x] ∧ x.severity = .info) := by
  rcases t.check_cases d.1 d.2 with ⟨hb, hc⟩ | ⟨hb, _, hc⟩ | ⟨hb, hlt, _, hc⟩ | ⟨hb, _, hc⟩
  · exact .inl ⟨hb, report?_of_check hc, told_of_check hc⟩
  · refine .inr (.inl ⟨_, hb, report?_of_check hc, ?_, ?_, rfl⟩)
    · rw [told_of_check hc]
      exact fun x hx => severity_of_mem_warnings hx
    · rw [told_of_check hc]
      exact (List.length_map _).symm
  · exact .inr (.inr ⟨_, hb, hlt, report?_of_check hc, told_of_check hc, rfl⟩)
  · refine .inr (.inl ⟨_, hb, report?_of_check hc, ?_, ?_, rfl⟩)
    · simp [told_of_check hc]
    · rw [told_of_check hc]
      rfl

theorem isSome_report? (t : Table) (d : SourceFile × Decl) :
    (t.report? d).isSome = d.2.hasBody := by
  rcases t.told_cases d with ⟨hb, hr, _⟩ | ⟨r, hb, hr, _⟩ | ⟨x, hb, _, hr, _⟩
  all_goals
    rw [hr, hb]
    rfl

/-- A report counts the warnings that are told. -/
theorem countP_warning_told (t : Table) (d : SourceFile × Decl) :
    (t.told d).countP (·.severity = .warning) = ((t.report? d).map (·.warnings)).getD 0 := by
  rcases t.told_cases d with ⟨_, hr, ht⟩ | ⟨r, _, hr, hw, hn, _⟩ | ⟨x, _, _, hr, ht, hx⟩
  · rw [hr, ht]
    rfl
  · rw [hr, List.countP_eq_length.mpr (by simpa using hw)]
    exact hn.symm
  · rw [hr, ht]
    simp [hx, reportOf]

/-- A report says whether a suggestion is told. -/
theorem countP_info_told (t : Table) (d : SourceFile × Decl) :
    (t.told d).countP (·.severity = .info) = (t.report? d).toList.countP (·.suggested) := by
  rcases t.told_cases d with ⟨_, hr, ht⟩ | ⟨r, _, hr, hw, _, hs⟩ | ⟨x, _, _, hr, ht, hx⟩
  · rw [hr, ht]
    rfl
  · have hnone : (t.told d).countP (·.severity = .info) = 0 := by
      rw [List.countP_eq_zero]
      intro x hx
      simp [hw x hx]
    rw [hr, hnone]
    simp [hs]
  · rw [hr, ht]
    simp [hx, reportOf]

end Table

/-! ## The report of a module -/

/-- A visit in a tour is counted as skipped just when the declaration has no body. -/
theorem Session.Tour.Completes.wasSkipped_entry {s : Session} {ds : List (Key × SourceFile × Decl)}
    {tour : Session.Tour} (h : tour.Completes s ds) {d : Key × SourceFile × Decl} (hd : d ∈ ds) :
    wasSkipped tour.session (s.table.entry d) = !d.2.2.hasBody := by
  have hp : tour.session.progress d.1 = s.table.settled d.2.2 := by
    rw [Session.progress, h.settled d hd, Option.getD_some]
  have hr := s.table.isSome_report? d.2
  unfold wasSkipped Table.entry
  rw [s.table.outcome_eq]
  rcases hb : d.2.2.hasBody with _ | _
  · rw [hb, Option.isSome_eq_false_iff, Option.isNone_iff_eq_none] at hr
    have hnone : d.2.2.body = none := by simpa [Decl.hasBody] using hb
    simp [hr, hp, Table.settled, hnone]
  · rw [hb] at hr
    obtain ⟨r, hr⟩ := Option.isSome_iff_exists.mp hr
    simp [hr]

/-- The report of a tour has the reports of the functions with a body, in order, counts those
without one, and has no failures. -/
theorem Session.Tour.Completes.ofTour_eq {s : Session} {ds : List (Key × SourceFile × Decl)}
    {tour : Session.Tour} (h : tour.Completes s ds) :
    ModuleReport.ofTour tour =
      ⟨(ds.map Prod.snd).filterMap s.table.report?,
        (ds.map Prod.snd).countP (fun d => !d.2.hasBody), []⟩ := by
  have hskipped : (ds.map s.table.entry).countP (wasSkipped tour.session) =
      (ds.map Prod.snd).countP fun d => !d.2.hasBody := by
    rw [List.countP_map, List.countP_map]
    refine List.countP_congr fun d hd => ?_
    simp only [Function.comp_apply, h.wasSkipped_entry hd]
  have hfailed : (ds.map s.table.entry).filterMap failureOf? = [] := by
    rw [List.filterMap_map, List.filterMap_eq_nil_iff]
    intro d _
    simp only [Function.comp_apply, failureOf?, Table.entry, s.table.outcome_eq]
  have hreports : (ds.map s.table.entry).filterMap reportOf? =
      (ds.map Prod.snd).filterMap s.table.report? := by
    rw [List.filterMap_map, List.filterMap_map]
    rfl
  rw [ModuleReport.ofTour, h.outcomes_eq, hskipped, hfailed, hreports]

namespace Checker

variable {c : Config} (m : Module) (turns : List Nat)

/-- Both ways to visit the declarations complete, and what they tell interleaves. -/
theorem exists_tour (h : c.enabled = true) :
    ∃ tour : Session.Tour, ((ofConfig c).run m turns).report = .ofTour tour ∧
      ((ofConfig c).run m turns).diagnostics = tour.diagnostics ∧
      tour.Completes (.start c.table) m.declarations ∧
      Interleaves (m.declarations.map fun d => c.table.told d.2) tour.diagnostics := by
  rcases hparallel : c.parallel with _ | _
  · have hcovers := Session.covers_of_perm c.table (.refl m.declarations)
    refine ⟨(Session.start c.table).visitAll m.declarations, ?_, ?_, hcovers.toCompletes, ?_⟩
    · simp [run, ofConfig, h, hparallel]
    · simp [run, ofConfig, h, hparallel]
    · rw [hcovers.diagnostics_eq, List.flatMap_def]
      exact .of_flatten _
  · obtain ⟨hcompletes, hinterleaves⟩ :=
      Session.completes_visitTogether (s := .start c.table) (fun _ _ => rfl) m.nodup_keys turns
    refine ⟨_, ?_, ?_, hcompletes, hinterleaves⟩
    · simp [run, ofConfig, h, hparallel]
    · simp [run, ofConfig, h, hparallel]

theorem run_report (h : c.enabled = true) :
    ((ofConfig c).run m turns).report =
      ⟨m.functions.filterMap c.table.report?, m.functions.countP (fun d => !d.2.hasBody), []⟩ := by
  obtain ⟨tour, hreport, _, hcompletes, _⟩ := exists_tour m turns h
  rw [hreport, hcompletes.ofTour_eq, m.map_snd_declarations]
  rfl

theorem map_told_declarations :
    (m.declarations.map fun d => c.table.told d.2) = m.functions.map c.table.told := by
  rw [← m.map_snd_declarations, List.map_map]
  rfl

theorem interleaves_run (h : c.enabled = true) :
    Interleaves (m.functions.map c.table.told) ((ofConfig c).run m turns).diagnostics := by
  obtain ⟨tour, _, hdiagnostics, _, hinterleaves⟩ := exists_tour m turns h
  rw [hdiagnostics, ← map_told_declarations]
  exact hinterleaves

theorem run_diagnostics_perm (h : c.enabled = true) :
    ((ofConfig c).run m turns).diagnostics.Perm (m.functions.flatMap c.table.told) :=
  (interleaves_run m turns h).perm

/-- With one visit after the other, the run is made of the tour in the order of the declarations. -/
theorem run_in_order (h : c.enabled = true) (horder : c.parallel = false ∨ turns = []) :
    ((ofConfig c).run m turns).report =
        .ofTour ((Session.start c.table).visitAll m.declarations) ∧
      ((ofConfig c).run m turns).diagnostics =
        ((Session.start c.table).visitAll m.declarations).diagnostics := by
  rcases horder with hparallel | rfl
  · simp [run, ofConfig, h, hparallel]
  · simp [run, ofConfig, h, Session.visitTogether_nil]

theorem run_diagnostics (h : c.enabled = true) (horder : c.parallel = false ∨ turns = []) :
    ((ofConfig c).run m turns).diagnostics = m.functions.flatMap c.table.told := by
  have hcovers := Session.covers_of_perm c.table (.refl m.declarations)
  rw [(run_in_order m turns h horder).2, hcovers.diagnostics_eq, List.flatMap_def,
    List.flatMap_def, ← map_told_declarations]
  rfl

/-- Visits that are made at the same time are told in every order that keeps the order of each
function. -/
theorem exists_run_diagnostics (h : c.enabled = true) (hparallel : c.parallel = true)
    {whole : List Diagnostic} (hwhole : Interleaves (m.functions.map c.table.told) whole) :
    ∃ turns, ((ofConfig c).run m turns).diagnostics = whole := by
  rw [← map_told_declarations] at hwhole
  obtain ⟨turns, hturns⟩ :=
    (Session.exists_turns_iff (s := .start c.table) (fun _ _ => rfl) m.nodup_keys whole).mpr hwhole
  refine ⟨turns, ?_⟩
  rw [← hturns]
  simp [run, ofConfig, h, hparallel]

end Checker

/-! ## Counting -/

/-- The words add up to the word of the sum. -/
theorem ModuleReport.warningCount_eq (r : ModuleReport) :
    r.warningCount = UInt64.ofNat (r.functions.foldr (fun f count => f.warnings + count) 0) := by
  unfold warningCount
  induction r.functions with
  | nil => rfl
  | cons f fs ih => rw [List.foldr_cons, List.foldr_cons, ih, UInt64.ofNat_add]

namespace Table

variable (t : Table) (ds : List (SourceFile × Decl))

/-- The functions with a body, each with what its check returns. -/
theorem map_ok_filterMap_report? :
    (ds.filterMap t.report?).map (fun r => .ok (some r)) =
      (ds.filter fun d => d.2.hasBody).map t.outcome := by
  induction ds with
  | nil => rfl
  | cons d ds ih =>
    have hs := t.isSome_report? d
    rcases hr : t.report? d with _ | r
    · rw [hr] at hs
      rw [List.filterMap_cons_none hr, List.filter_cons_of_neg (by simp [← hs]), ih]
    · rw [hr] at hs
      rw [List.filterMap_cons_some hr, List.filter_cons_of_pos (by simp [← hs]), List.map_cons,
        List.map_cons, ih, t.outcome_eq, hr]

theorem length_filterMap_report? :
    (ds.filterMap t.report?).length + ds.countP (fun d => !d.2.hasBody) = ds.length := by
  have hlen : (ds.filterMap t.report?).length = ds.countP fun d => d.2.hasBody := by
    rw [List.length_filterMap_eq_countP]
    simp only [isSome_report?]
  rw [hlen, List.length_eq_countP_add_countP fun d : SourceFile × Decl => d.2.hasBody]
  simp

theorem sum_warnings :
    (ds.filterMap t.report?).foldr (fun f count => f.warnings + count) 0 =
      (ds.flatMap t.told).countP (·.severity = .warning) := by
  induction ds with
  | nil => rfl
  | cons d ds ih =>
    rw [List.flatMap_cons, List.countP_append, countP_warning_told, ← ih]
    rcases hr : t.report? d with _ | r
    · rw [List.filterMap_cons_none hr]
      exact (Nat.zero_add _).symm
    · rw [List.filterMap_cons_some hr]
      rfl

theorem count_suggested :
    (ds.filterMap t.report?).countP (·.suggested) =
      (ds.flatMap t.told).countP (·.severity = .info) := by
  induction ds with
  | nil => rfl
  | cons d ds ih =>
    rw [List.flatMap_cons, List.countP_append, countP_info_told, ← ih, ← List.countP_append]
    rcases hr : t.report? d with _ | r
    · rw [List.filterMap_cons_none hr]
      rfl
    · rw [List.filterMap_cons_some hr]
      rfl

end Table

namespace Checker

variable {c : Config} (m : Module) (turns : List Nat)

theorem sum_warnings_run (h : c.enabled = true) :
    ((ofConfig c).run m turns).report.functions.foldr (fun f count => f.warnings + count) 0 =
      ((ofConfig c).run m turns).diagnostics.countP (·.severity = .warning) := by
  rw [run_report m turns h, (run_diagnostics_perm m turns h).countP_eq]
  exact c.table.sum_warnings m.functions

theorem suggestionCount_run (h : c.enabled = true) :
    ((ofConfig c).run m turns).report.suggestionCount =
      ((ofConfig c).run m turns).diagnostics.countP (·.severity = .info) := by
  rw [run_report m turns h, (run_diagnostics_perm m turns h).countP_eq]
  exact c.table.count_suggested m.functions

theorem warningCount_run (h : c.enabled = true) :
    ((ofConfig c).run m turns).report.warningCount =
      UInt64.ofNat (((ofConfig c).run m turns).diagnostics.countP (·.severity = .warning)) := by
  rw [ModuleReport.warningCount_eq, sum_warnings_run m turns h]

/-- The count of warnings does not wrap, where all that was told is counted by a word. -/
theorem toNat_warningCount_run (h : c.enabled = true)
    (hlt : ((ofConfig c).run m turns).diagnostics.length < UInt64.size) :
    ((ofConfig c).run m turns).report.warningCount.toNat =
      ((ofConfig c).run m turns).diagnostics.countP (·.severity = .warning) := by
  rw [warningCount_run m turns h]
  exact UInt64.toNat_ofNat_of_lt' (Nat.lt_of_le_of_lt List.countP_le_length hlt)

/-- Sorting loses and adds nothing. -/
theorem count_output (c : Checker) (severity : Severity) :
    (c.output m turns).count severity =
      (c.run m turns).diagnostics.countP (·.severity = severity) :=
  (List.mergeSort_perm _ _).countP_eq _

/-- Where nothing failed, the text for a terminal ends with the counts. -/
theorem terminalText_output (h : c.enabled = true) (color : Bool) :
    ((ofConfig c).output m turns).terminalText color =
      String.join
          (((ofConfig c).output m turns).diagnostics.map (CheckOutput.diagnosticLine color)) ++
        "\n" ++ ((ofConfig c).output m turns).summaryLine color := by
  have hfailures : ((ofConfig c).output m turns).report.failures = [] := by
    rw [output, run_report m turns h]
  rw [CheckOutput.terminalText, CheckOutput.failureLines, hfailures]
  exact String.append_empty

end Checker

/-! ## The law -/

/-- Checking a module loses, doubles and mixes up nothing, whatever turns the visits take. The reports
are what the checks of the functions with a body return, in the order of the declarations, and the
functions without one are counted as skipped, so that together they are all functions. What is told
is what the checks tell, each in its own order: one check after the other where the visits are made
in order, and in every way that the parts can be put together where they are made at the same time.
The report counts as many warnings and suggestions as were told, and the output shows the same
counts in its last line. The count of warnings is a word, and is exact for every list that a word
can count. -/
theorem a_module_report_accounts_for_every_function (c : Config) (m : Module) (turns : List Nat)
    (h : c.enabled = true) :
    let t := c.table
    let run := (Checker.ofConfig c).run m turns
    let output := (Checker.ofConfig c).output m turns
    let told := m.functions.map fun d => Session.diagnosticsOf (t.check d.1 d.2)
    let warned := run.diagnostics.countP (·.severity = .warning)
    run.report.functions.map (fun r => .ok (some r)) =
        (m.functions.filter fun d => d.2.hasBody).map
          (fun d => (t.check d.1 d.2).map (·.report)) ∧
      run.report.skipped = m.functions.countP (fun d => !d.2.hasBody) ∧
      run.report.failures = [] ∧
      run.report.functions.length + run.report.skipped = m.functionCount ∧
      (c.parallel = false ∨ turns = [] → run.diagnostics = told.flatten) ∧
      (c.parallel = true → ∀ whole, Interleaves told whole ↔
        ∃ turns, ((Checker.ofConfig c).run m turns).diagnostics = whole) ∧
      run.diagnostics.Perm told.flatten ∧
      run.report.functions.foldr (fun f count => f.warnings + count) 0 = warned ∧
      run.report.warningCount = UInt64.ofNat warned ∧
      run.report.suggestionCount = run.diagnostics.countP (·.severity = .info) ∧
      output.count .warning = warned ∧
      output.count .info = run.report.suggestionCount ∧
      (∀ color, output.terminalText color =
        String.join (output.diagnostics.map (CheckOutput.diagnosticLine color)) ++ "\n" ++
          output.summaryLine color) ∧
      (run.diagnostics.length < UInt64.size →
        run.report.warningCount.toNat = warned ∧
          ∀ color, output.summaryLine color =
            Style.bold.paint color "Purity" ++ " " ++ m.name ++ ": " ++
              toString run.report.functions.length ++ " functions checked, " ++
              toString run.report.skipped ++ " skipped, " ++
              toString run.report.warningCount.toNat ++ " warnings, " ++
              toString run.report.suggestionCount ++ " suggestions\n") := by
  have hwarned := Checker.count_output m turns (.ofConfig c) .warning
  have hsuggested := (Checker.count_output m turns (.ofConfig c) .info).trans
    (Checker.suggestionCount_run m turns h).symm
  refine ⟨?_, ?_, ?_, ?_, ?_, ?_, Checker.run_diagnostics_perm m turns h,
    Checker.sum_warnings_run m turns h, Checker.warningCount_run m turns h,
    Checker.suggestionCount_run m turns h, hwarned, hsuggested,
    Checker.terminalText_output m turns h, ?_⟩
  · rw [Checker.run_report m turns h]
    exact c.table.map_ok_filterMap_report? m.functions
  · rw [Checker.run_report m turns h]
  · rw [Checker.run_report m turns h]
  · rw [Checker.run_report m turns h, ← m.length_functions]
    exact c.table.length_filterMap_report? m.functions
  · exact Checker.run_diagnostics m turns h
  · intro hparallel whole
    refine ⟨Checker.exists_run_diagnostics m h hparallel, ?_⟩
    rintro ⟨turns', rfl⟩
    exact Checker.interleaves_run m turns' h
  · intro hlt
    have hexact := Checker.toNat_warningCount_run m turns h hlt
    refine ⟨hexact, fun color => ?_⟩
    rw [CheckOutput.summaryLine, hwarned, hsuggested, hexact]
    rfl

theorem overloads_are_accounted_for :
    ({} : Config).enabled = true ∧
      ((Checker.ofConfig {}).run overloads [1, 0, 1, 1]).diagnostics.length < UInt64.size ∧
      ((Checker.ofConfig {}).output overloads [1, 0, 1, 1]).summaryLine false =
        "Purity m: 2 functions checked, 1 skipped, 1 warnings, 1 suggestions\n" := by
  have hlt : ((Checker.ofConfig {}).run overloads [1, 0, 1, 1]).diagnostics.length <
      UInt64.size := by decide
  obtain ⟨_, _, _, _, _, _, _, _, _, _, _, _, _, hcounts⟩ :=
    a_module_report_accounts_for_every_function {} overloads [1, 0, 1, 1] rfl
  refine ⟨rfl, hlt, ?_⟩
  rw [(hcounts hlt).2 false]
  decide

/-- The second function may be told of before the first. -/
theorem overloads_may_be_told_out_of_order :
    ({} : Config).enabled = true ∧ ({} : Config).parallel = true ∧
      ((Checker.ofConfig {}).run overloads (List.replicate 8 1)).diagnostics ≠
        overloads.functions.flatMap fun d =>
          Session.diagnosticsOf ((Config.table {}).check d.1 d.2) := by
  decide

end Purity
