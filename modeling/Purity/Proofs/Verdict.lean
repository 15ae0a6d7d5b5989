-- The laws of checking one function. A check never fails, and it warns, suggests or is silent: it
-- warns where the body falls short of the declared level, it suggests where the body supports more
-- and somebody can mark the function, and it does neither elsewhere.
import Purity.Check
import Purity.Proofs.Walk

namespace Purity

/-! ## Suggestions -/

/-- The contract that states a level. -/
def Level.contract : Level → String
  | .pure => "@Contract(pure = true)"
  | .readonly => "@Contract(\"readonly\")"
  | .none => ""

/-- The text of a suggestion. It names the level, and how to state it. -/
def suggestionText (function : String) (l : Level) : String :=
  "Function " ++ inQuotes function ++ " can be marked with " ++ l.contract ++
    " to indicate it is " ++ l.key

/-- There is a suggestion for each level but the weakest. -/
theorem suggestion_eq {l : Level} (id function : String) (h : Level.none < l) :
    suggestion id function l = .ok (suggestionText function l) := by
  cases l with
  | none => exact absurd h (by decide)
  | readonly => simp [suggestion, suggestionText, Level.contract, Level.key, String.append_assoc]
  | pure => simp [suggestion, suggestionText, Level.contract, Level.key, String.append_assoc]

namespace Table

/-! ## The cases of a check -/

/-- The classification of a function against the level that it declares itself. -/
def judge (t : Table) (decl : Decl) : Classification :=
  t.classify decl (t.declaredLevel decl.signature)

/-- The report of a function, given what was told about it. -/
def reportOf (t : Table) (decl : Decl) (warnings : Nat) (suggested : Bool) : FunctionReport :=
  ⟨decl.id, t.declaredLevel decl.signature, (t.judge decl).inferred, decl.signature.isSynthesized,
    warnings, suggested⟩

variable {t : Table} {file : SourceFile} {decl : Decl}

theorem underClaimed_judge :
    (t.judge decl).underClaimed =
      decide (t.declaredLevel decl.signature < (t.judge decl).inferred) := by
  rw [Classification.underClaimed, judge, classify_declared]

theorem check_of_no_body (h : decl.hasBody = false) : t.check file decl = .ok ⟨none, []⟩ := by
  simp [check, h]

theorem check_of_body (h : decl.hasBody = true) :
    t.check file decl =
      if (t.judge decl).underClaimed && !decl.signature.isSynthesized then
        (suggestion decl.id decl.name (t.judge decl).inferred).map fun message =>
          ⟨some (t.reportOf decl (t.judge decl).findings.length true),
            warnings file decl (t.judge decl) ++
              [⟨.info, message, file.location decl.offset, decl.id⟩]⟩
      else
        .ok ⟨some (t.reportOf decl (t.judge decl).findings.length false),
          warnings file decl (t.judge decl)⟩ := by
  have hw : ∀ c : Classification, (warnings file decl c).length = c.findings.length :=
    fun c => List.length_map _
  by_cases hs : ((t.judge decl).underClaimed && !decl.signature.isSynthesized) = true
  · rw [if_pos hs]
    unfold judge at hs ⊢
    simp only [check, h, hs, Bool.not_true, Bool.false_eq_true, if_false, if_true, hw]
    cases suggestion decl.id decl.name (t.classify decl (t.declaredLevel decl.signature)).inferred
    · rfl
    · rfl
  · rw [if_neg hs]
    unfold judge at hs ⊢
    rw [Bool.not_eq_true] at hs
    simp only [check, h, hs, Bool.not_true, Bool.false_eq_true, if_false, hw]
    simp [bind, Except.bind, pure, Except.pure, reportOf, judge]

/-- A body below the declared level brings warnings only, one for each finding. -/
theorem check_of_inferred_lt (h : decl.hasBody = true)
    (hlt : (t.judge decl).inferred < t.declaredLevel decl.signature) :
    t.check file decl =
      .ok ⟨some (t.reportOf decl (t.judge decl).findings.length false),
        warnings file decl (t.judge decl)⟩ := by
  have hu : (t.judge decl).underClaimed = false := by
    rw [underClaimed_judge, decide_eq_false_iff_not]
    exact Nat.lt_asymm hlt
  simp [check_of_body h, hu]

/-- A body that supports the declared level brings no warnings. -/
theorem check_of_le_inferred (h : decl.hasBody = true)
    (hle : t.declaredLevel decl.signature ≤ (t.judge decl).inferred) :
    t.check file decl =
      if (t.judge decl).underClaimed && !decl.signature.isSynthesized then
        (suggestion decl.id decl.name (t.judge decl).inferred).map fun message =>
          ⟨some (t.reportOf decl 0 true), [⟨.info, message, file.location decl.offset, decl.id⟩]⟩
      else .ok ⟨some (t.reportOf decl 0 false), []⟩ := by
  have hnil : (t.judge decl).findings = [] := (t.classify_findings_eq_nil h _).mpr hle
  simp [check_of_body h, warnings, hnil]

/-- A suggestion is only made for a level above the declared one, so there always is one. -/
theorem check_of_lt_inferred (h : decl.hasBody = true)
    (hlt : t.declaredLevel decl.signature < (t.judge decl).inferred)
    (hs : decl.signature.isSynthesized = false) :
    t.check file decl =
      .ok ⟨some (t.reportOf decl 0 true),
        [⟨.info, suggestionText decl.name (t.judge decl).inferred, file.location decl.offset,
          decl.id⟩]⟩ := by
  have hnone : Level.none < (t.judge decl).inferred :=
    Nat.lt_of_le_of_lt (Level.none_le (t.declaredLevel decl.signature)) hlt
  rw [check_of_le_inferred h (Nat.le_of_lt hlt), underClaimed_judge, hs, suggestion_eq _ _ hnone]
  simp [hlt, Except.map]

theorem check_of_silent (h : decl.hasBody = true)
    (hq : (t.judge decl).inferred = t.declaredLevel decl.signature ∨
      t.declaredLevel decl.signature < (t.judge decl).inferred ∧
        decl.signature.isSynthesized = true) :
    t.check file decl = .ok ⟨some (t.reportOf decl 0 false), []⟩ := by
  rcases hq with heq | ⟨hlt, hs⟩
  · rw [check_of_le_inferred h (Nat.le_of_eq (congrArg Level.rank heq.symm)), underClaimed_judge,
      heq]
    simp [Level.lt_def]
  · rw [check_of_le_inferred h (Nat.le_of_lt hlt), hs]
    simp

theorem warnings_judge (file : SourceFile) :
    warnings file decl (t.judge decl) = (t.judge decl).findings.map fun f =>
      ⟨.warning, f.violation.message decl.name (t.declaredLevel decl.signature),
        file.location f.offset, decl.id⟩ := by
  rw [warnings, judge, classify_declared]

theorem severity_of_mem_warnings {c : Classification} {d : Diagnostic}
    (h : d ∈ warnings file decl c) : d.severity = .warning := by
  obtain ⟨f, _, rfl⟩ := List.mem_map.mp h
  rfl

/-- A body below the declared level has something in it that breaks the level. -/
theorem warnings_judge_ne_nil (file : SourceFile) (h : decl.hasBody = true)
    (hlt : (t.judge decl).inferred < t.declaredLevel decl.signature) :
    warnings file decl (t.judge decl) ≠ [] := by
  intro hnil
  have hf : (t.judge decl).findings = [] := List.map_eq_nil_iff.mp hnil
  exact Level.not_lt.mpr ((t.classify_findings_eq_nil h _).mp hf) hlt

/-- Each check falls in one of four cases, and in none of them does it fail. -/
theorem check_cases (t : Table) (file : SourceFile) (decl : Decl) :
    (decl.hasBody = false ∧ t.check file decl = .ok ⟨none, []⟩) ∨
    (decl.hasBody = true ∧ (t.judge decl).inferred < t.declaredLevel decl.signature ∧
      t.check file decl =
        .ok ⟨some (t.reportOf decl (t.judge decl).findings.length false),
          warnings file decl (t.judge decl)⟩) ∨
    (decl.hasBody = true ∧ t.declaredLevel decl.signature < (t.judge decl).inferred ∧
      decl.signature.isSynthesized = false ∧
      t.check file decl =
        .ok ⟨some (t.reportOf decl 0 true),
          [⟨.info, suggestionText decl.name (t.judge decl).inferred, file.location decl.offset,
            decl.id⟩]⟩) ∨
    (decl.hasBody = true ∧
      ((t.judge decl).inferred = t.declaredLevel decl.signature ∨
        t.declaredLevel decl.signature < (t.judge decl).inferred ∧
          decl.signature.isSynthesized = true) ∧
      t.check file decl = .ok ⟨some (t.reportOf decl 0 false), []⟩) := by
  rcases hb : decl.hasBody with _ | _
  · exact .inl ⟨rfl, check_of_no_body hb⟩
  · refine .inr ?_
    rcases Level.lt_trichotomy (t.judge decl).inferred (t.declaredLevel decl.signature) with
      hlt | heq | hlt
    · exact .inl ⟨rfl, hlt, check_of_inferred_lt hb hlt⟩
    · exact .inr (.inr ⟨rfl, .inl heq, check_of_silent hb (.inl heq)⟩)
    · rcases hs : decl.signature.isSynthesized with _ | _
      · exact .inr (.inl ⟨rfl, hlt, rfl, check_of_lt_inferred hb hlt hs⟩)
      · exact .inr (.inr ⟨rfl, .inr ⟨hlt, rfl⟩, check_of_silent hb (.inr ⟨hlt, hs⟩)⟩)

end Table

/-! ## The law -/

/-- Checking a function never fails. It is silent about a function without a body. Of a function with
one it tells warnings alone where the body falls short, a single suggestion where the body supports
more and the function is not synthesized, and nothing elsewhere. So it never tells both, and never
warns about a function that claims nothing. -/
theorem a_check_warns_or_suggests_or_is_silent (t : Table) (file : SourceFile) (decl : Decl) :
    ∃ checked, t.check file decl = .ok checked ∧
      (let declared := t.declaredLevel decl.signature
      let c := t.classify decl declared
      let report (warnings : Nat) (suggested : Bool) : FunctionReport :=
        ⟨decl.id, declared, c.inferred, decl.signature.isSynthesized, warnings, suggested⟩
      (decl.body = none ∧ checked = ⟨none, []⟩) ∨
      (decl.body ≠ none ∧ c.inferred < declared ∧ checked.diagnostics ≠ [] ∧
        checked.diagnostics = c.findings.map (fun f =>
          ⟨.warning, f.violation.message decl.name declared, file.location f.offset, decl.id⟩) ∧
        checked.report = some (report checked.diagnostics.length false)) ∨
      (decl.body ≠ none ∧ declared < c.inferred ∧ decl.signature.isSynthesized = false ∧
        checked.diagnostics =
          [⟨.info, suggestionText decl.name c.inferred, file.location decl.offset, decl.id⟩] ∧
        checked.report = some (report 0 true)) ∨
      (decl.body ≠ none ∧
        (c.inferred = declared ∨ declared < c.inferred ∧ decl.signature.isSynthesized = true) ∧
        checked.diagnostics = [] ∧ checked.report = some (report 0 false))) ∧
      (∀ d₁ ∈ checked.diagnostics, ∀ d₂ ∈ checked.diagnostics, d₁.severity = d₂.severity) ∧
      (t.declaredLevel decl.signature = .none →
        ∀ d ∈ checked.diagnostics, d.severity = .info) := by
  rcases t.check_cases file decl with ⟨hb, hc⟩ | ⟨hb, hlt, hc⟩ | ⟨hb, hlt, hs, hc⟩ | ⟨hb, hq, hc⟩
  · have hnone : decl.body = none := by simpa [Decl.hasBody] using hb
    exact ⟨_, hc, .inl ⟨hnone, rfl⟩, by simp, by simp⟩
  · refine ⟨_, hc, .inr (.inl ⟨Option.isSome_iff_ne_none.mp hb, hlt, ?_, ?_, ?_⟩), ?_, ?_⟩
    · exact Table.warnings_judge_ne_nil file hb hlt
    · exact Table.warnings_judge file
    · simp [Table.reportOf, Table.warnings, Table.judge]
    · intro d₁ h₁ d₂ h₂
      rw [Table.severity_of_mem_warnings h₁, Table.severity_of_mem_warnings h₂]
    · intro hnone
      rw [hnone] at hlt
      exact absurd hlt (Nat.not_lt_zero _)
  · refine ⟨_, hc, .inr (.inr (.inl ⟨Option.isSome_iff_ne_none.mp hb, hlt, hs, rfl, rfl⟩)), ?_, ?_⟩
    · simp
    · simp
  · refine ⟨_, hc, .inr (.inr (.inr ⟨Option.isSome_iff_ne_none.mp hb, hq, rfl, rfl⟩)), ?_, ?_⟩
    · simp
    · simp

end Purity
