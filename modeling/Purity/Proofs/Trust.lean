-- The laws of trust. Trusting more names can only raise what a callee declares, and it does so just
-- where nothing else decides: from none to pure. So a body infers no less, and the findings that go
-- are those at calls of functions that nobody vouched for before.
import Purity.Proofs.Verdict

namespace Purity

namespace Table

theorem mem_trusted_ofNames {names : List String} {name : String} :
    name ∈ (ofNames names).trusted ↔ name ∈ Text.trimAll names := by
  simp [ofNames, List.mem_eraseDups]

/-- The function is trusted by the second table alone. -/
def NewlyTrusts (t t' : Table) (s : Signature) : Prop :=
  s.qualifiedName ∈ t'.trusted ∧ s.qualifiedName ∉ t.trusted

variable {t t' : Table}

/-! ## What a signature declares -/

/-- Trust is asked after the contracts and the types, and before the evaluation mark. -/
theorem declaredLevel_cases (hsub : t.trusted ⊆ t'.trusted) (s : Signature) :
    t'.declaredLevel s = t.declaredLevel s ∨
      t.NewlyTrusts t' s ∧ t.declaredLevel s = .none ∧ t'.declaredLevel s = .pure := by
  by_cases hnew : t.NewlyTrusts t' s
  · obtain ⟨hin, hout⟩ := hnew
    unfold declaredLevel
    simp only [List.contains_eq_mem, hin, hout, decide_true, decide_false, if_true,
      Bool.false_eq_true, if_false]
    repeat' split
    all_goals simp [NewlyTrusts, hin, hout]
  · left
    have hsame : s.qualifiedName ∈ t'.trusted ↔ s.qualifiedName ∈ t.trusted := by
      constructor
      · intro h
        by_contra hout
        exact hnew ⟨h, hout⟩
      · exact fun h => hsub h
    simp [declaredLevel, hsame]

theorem declaredLevel_of_not_newly (hsub : t.trusted ⊆ t'.trusted) {s : Signature}
    (h : ¬ t.NewlyTrusts t' s) : t'.declaredLevel s = t.declaredLevel s := by
  rcases declaredLevel_cases hsub s with heq | ⟨hnew, _⟩
  · exact heq
  · exact absurd hnew h

/-- The exemption for local instances only ever raises a level, so it changes nothing here. -/
theorem effectiveLevel_cases (hsub : t.trusted ⊆ t'.trusted) (callee : Signature)
    (receiver : Option Expr) (caller : String) :
    t'.effectiveLevel callee receiver caller = t.effectiveLevel callee receiver caller ∨
      t.NewlyTrusts t' callee ∧ t.effectiveLevel callee receiver caller = .none ∧
        t'.effectiveLevel callee receiver caller = .pure := by
  unfold effectiveLevel
  rcases declaredLevel_cases hsub callee with heq | ⟨hnew, hnone, hpure⟩
  · simp [heq]
  · by_cases hmade : callee.createsEncapsulated = true
    · left
      simp [hpure, hmade]
    · by_cases hown : (callee.isEncapsulated && receiverIsLocal receiver caller) = true
      · left
        simp [hpure, hown]
      · right
        simp [hnew, hnone, hpure, hmade, hown]

/-! ## What a node is -/

/-- A node is the same under both tables, or it is a call that only the first table objects to. -/
theorem construct_cases (hsub : t.trusted ⊆ t'.trusted) (caller : String) (e : Expr) :
    (t'.construct? caller e = t.construct? caller e ∧
      t'.constructLevel caller e = t.constructLevel caller e) ∨
      ∃ o callee receiver arguments, e = .call o callee receiver arguments ∧
        t.NewlyTrusts t' callee ∧ t.construct? caller e = some (.callsWeaker callee.name .none) ∧
        t'.construct? caller e = none ∧ t.constructLevel caller e = .none ∧
        t'.constructLevel caller e = .pure := by
  cases e with
  | call o callee receiver arguments =>
    rcases effectiveLevel_cases hsub callee receiver caller with heq | ⟨hnew, hnone, hpure⟩
    · left
      simp [construct?, constructLevel, heq]
    · right
      refine ⟨o, callee, receiver, arguments, rfl, hnew, ?_, ?_, hnone, hpure⟩
      · simp only [construct?, hnone]
        rfl
      · simp only [construct?, hpure]
        rfl
  | _ => exact .inl ⟨rfl, rfl⟩

theorem constructLevel_le (hsub : t.trusted ⊆ t'.trusted) (caller : String) (e : Expr) :
    t.constructLevel caller e ≤ t'.constructLevel caller e := by
  rcases construct_cases hsub caller e with ⟨_, h⟩ | ⟨_, _, _, _, _, _, _, _, h, _⟩
  · rw [h]
    exact Nat.le_refl _
  · rw [h]
    exact Level.none_le _

theorem levelOf_le (hsub : t.trusted ⊆ t'.trusted) (caller : String) (nodes : List Expr) :
    t.levelOf caller nodes ≤ t'.levelOf caller nodes := by
  rw [le_levelOf]
  intro e he
  have hall := le_levelOf.mp (Nat.le_refl (t.levelOf caller nodes).rank) e he
  exact Nat.le_trans hall (constructLevel_le hsub caller e)

/-- A node keeps its finding, or it is a call whose finding goes. -/
theorem findingBelow?_cases (hsub : t.trusted ⊆ t'.trusted) (caller : String) (declared : Level)
    (e : Expr) :
    t'.findingBelow? caller declared e = t.findingBelow? caller declared e ∨
      ∃ o callee receiver arguments, e = .call o callee receiver arguments ∧
        t.NewlyTrusts t' callee ∧
        t.findingBelow? caller declared e = some ⟨.callsWeaker callee.name .none, o⟩ ∧
        t'.findingBelow? caller declared e = none := by
  rcases construct_cases hsub caller e with
    ⟨hc, hl⟩ | ⟨o, callee, receiver, arguments, rfl, hnew, hc, hc', hl, hl'⟩
  · left
    rw [findingBelow?, findingBelow?, hc, hl]
  · by_cases hd : Level.none < declared
    · right
      refine ⟨o, callee, receiver, arguments, rfl, hnew, ?_, ?_⟩
      · simp [findingBelow?, hc, hl, hd, Expr.offset]
      · simp [findingBelow?, hc']
    -- A function that declares nothing has no findings under either table.
    · left
      simp [findingBelow?, hc', hl, hd]

theorem findingsBelow_sublist (hsub : t.trusted ⊆ t'.trusted) (caller : String) (declared : Level)
    (nodes : List Expr) :
    (t'.findingsBelow caller declared nodes).Sublist (t.findingsBelow caller declared nodes) := by
  unfold findingsBelow
  induction nodes with
  | nil => exact .refl []
  | cons e es ih =>
    rw [List.filterMap_cons, List.filterMap_cons]
    rcases findingBelow?_cases hsub caller declared e with heq | ⟨_, _, _, _, _, _, hf, hf'⟩
    · rw [heq]
      split
      · exact ih
      · exact ih.cons_cons _
    · rw [hf, hf']
      exact ih.cons _

/-! ## What a check warns of -/

/-- The warnings of a check are those of its findings, whatever else it tells. -/
theorem check_warnings (t : Table) (file : SourceFile) (decl : Decl) :
    ∃ checked, t.check file decl = .ok checked ∧
      checked.diagnostics.filter (·.severity = .warning) =
        if decl.hasBody then warnings file decl (t.judge decl) else [] := by
  have hnil : decl.hasBody = true → t.declaredLevel decl.signature ≤ (t.judge decl).inferred →
      warnings file decl (t.judge decl) = [] := by
    intro hb hle
    have hfindings : (t.judge decl).findings = [] := (t.classify_findings_eq_nil hb _).mpr hle
    simp [warnings, hfindings]
  rcases t.check_cases file decl with ⟨hb, hc⟩ | ⟨hb, _, hc⟩ | ⟨hb, hlt, _, hc⟩ | ⟨hb, hq, hc⟩
  · exact ⟨_, hc, by simp [hb]⟩
  · refine ⟨_, hc, ?_⟩
    rw [if_pos hb, List.filter_eq_self]
    intro d hd
    simp [severity_of_mem_warnings hd]
  · refine ⟨_, hc, ?_⟩
    rw [if_pos hb, hnil hb (Nat.le_of_lt hlt)]
    simp
  · refine ⟨_, hc, ?_⟩
    have hle : t.declaredLevel decl.signature ≤ (t.judge decl).inferred := by
      rcases hq with heq | ⟨hlt, _⟩
      · exact Nat.le_of_eq (congrArg Level.rank heq.symm)
      · exact Nat.le_of_lt hlt
    rw [if_pos hb, hnil hb hle]
    simp

theorem classify_findings_sublist (hsub : t.trusted ⊆ t'.trusted) (decl : Decl) (l : Level) :
    (t'.classify decl l).findings.Sublist (t.classify decl l).findings := by
  rcases hb : decl.body with _ | body
  · simp [classify, hb]
  · rw [classify_eq hb, classify_eq hb]
    exact findingsBelow_sublist hsub decl.id l body.preorder

/-- As long as the function's own claim stays what it was, no warning is new. -/
theorem warnings_sublist (hsub : t.trusted ⊆ t'.trusted) {decl : Decl}
    (h : ¬ t.NewlyTrusts t' decl.signature) (file : SourceFile) :
    (warnings file decl (t'.judge decl)).Sublist (warnings file decl (t.judge decl)) := by
  rw [warnings_judge, warnings_judge, declaredLevel_of_not_newly hsub h]
  unfold judge
  rw [declaredLevel_of_not_newly hsub h]
  exact (classify_findings_sublist hsub decl _).map _

end Table

/-! ## The law -/

/-- With more trusted names, a body infers no less, and its findings are some of those that it had,
in their order. Node by node, a finding stays as it is, unless the node is a call of a function that
only the longer list trusts and that declared nothing: then the finding goes. As long as the function
itself is not newly trusted, checking it brings no warning that it did not bring before. -/
theorem trusting_more_names_only_relaxes (names names' : List String) (decl : Decl)
    (hsub : Text.trimAll names ⊆ Text.trimAll names') :
    let t := Table.ofNames names
    let t' := Table.ofNames names'
    let newly (s : Signature) :=
      s.qualifiedName ∈ Text.trimAll names' ∧ s.qualifiedName ∉ Text.trimAll names
    (∀ body declared, decl.body = some body →
      let c := t.classify decl declared
      let c' := t'.classify decl declared
      c.inferred ≤ c'.inferred ∧ c'.findings.Sublist c.findings ∧
        c.findings = body.preorder.filterMap (t.findingBelow? decl.id declared) ∧
        c'.findings = body.preorder.filterMap (t'.findingBelow? decl.id declared) ∧
        ∀ node ∈ body.preorder,
          t'.findingBelow? decl.id declared node = t.findingBelow? decl.id declared node ∨
          ∃ o callee receiver arguments, node = .call o callee receiver arguments ∧
            newly callee ∧
            t.findingBelow? decl.id declared node = some ⟨.callsWeaker callee.name .none, o⟩ ∧
            t'.findingBelow? decl.id declared node = none) ∧
    (¬ newly decl.signature → ∀ file, ∃ checked checked',
      t.check file decl = .ok checked ∧ t'.check file decl = .ok checked' ∧
        (checked'.diagnostics.filter (·.severity = .warning)).Sublist
          (checked.diagnostics.filter (·.severity = .warning))) := by
  intro t t' newly
  have htrusted : t.trusted ⊆ t'.trusted := fun name h =>
    Table.mem_trusted_ofNames.mpr (hsub (Table.mem_trusted_ofNames.mp h))
  have hnewly : ∀ s, t.NewlyTrusts t' s ↔ newly s := fun s => by
    rw [Table.NewlyTrusts, Table.mem_trusted_ofNames, Table.mem_trusted_ofNames]
  constructor
  · intro body declared hbody c c'
    have hc : c = _ := Table.classify_eq hbody declared
    have hc' : c' = _ := Table.classify_eq hbody declared
    refine ⟨?_, Table.classify_findings_sublist htrusted decl declared, ?_, ?_, ?_⟩
    · rw [hc, hc']
      exact Table.levelOf_le htrusted decl.id body.preorder
    · rw [hc]
      rfl
    · rw [hc']
      rfl
    · intro node _
      rcases Table.findingBelow?_cases htrusted decl.id declared node with
        heq | ⟨o, callee, receiver, arguments, hnode, hnew, hf⟩
      · exact .inl heq
      · exact .inr ⟨o, callee, receiver, arguments, hnode, (hnewly callee).mp hnew, hf⟩
  · intro hown file
    obtain ⟨checked, hcheck, hwarned⟩ := t.check_warnings file decl
    obtain ⟨checked', hcheck', hwarned'⟩ := t'.check_warnings file decl
    refine ⟨checked, checked', hcheck, hcheck', ?_⟩
    rw [hwarned, hwarned']
    split
    · exact Table.warnings_sublist htrusted ((hnewly decl.signature).not.mpr hown) file
    · exact .refl []

/-- A function marked as pure. It calls a logger, a function with a readonly contract, and one that
nobody knows. -/
def logging : Decl :=
  ⟨"m.f", ⟨"f", none, [.contractPure]⟩, [],
    some (.block 0
      [.call 1 ⟨"log", some ⟨"sample.Log", .object⟩, []⟩ none [],
        .call 2 ⟨"peek", none, [.contractReadonly]⟩ none [], .call 3 (.ofName "println") none []]),
    0⟩

-- The readonly contract of `peek` decides before the trust in it does.
theorem logging_is_relaxed_by_trust :
    let names := ["kotlin.math.max"]
    let names' := [" sample.Log.log ", "peek", "kotlin.math.max", ""]
    let found (names : List String) := ((Table.ofNames names).classify logging .pure).findings
    Text.trimAll names ⊆ Text.trimAll names' ∧
      found names = [⟨.callsWeaker "log" .none, 1⟩, ⟨.callsWeaker "peek" .readonly, 2⟩,
        ⟨.callsWeaker "println" .none, 3⟩] ∧
      found names' = [⟨.callsWeaker "peek" .readonly, 2⟩, ⟨.callsWeaker "println" .none, 3⟩] ∧
      (found names').Sublist (found names) := by
  intro names names' found
  have hsub : Text.trimAll names ⊆ Text.trimAll names' := by decide +kernel
  have hlaw := (trusting_more_names_only_relaxes names names' logging hsub).1 _ .pure rfl
  exact ⟨hsub, by decide +kernel, by decide +kernel, hlaw.2.1⟩

end Purity
