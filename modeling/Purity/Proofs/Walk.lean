-- The laws of the walk through a body. The walk keeps two flags, a list of findings and a count.
-- After each node they stand for exactly the nodes seen so far, so that in the end the level and
-- the findings of a body can be read off the list of its nodes.
import Mathlib.Data.List.Induction
import Purity.Classification
import Purity.Proofs.Tree

namespace Purity

/-! ## Levels -/

namespace Level

theorem le_pure (a : Level) : a ≤ .pure := by cases a <;> decide

theorem none_le (a : Level) : .none ≤ a := Nat.zero_le a.rank

theorem not_lt {a b : Level} : ¬ a < b ↔ b ≤ a := Nat.not_lt

theorem lt_of_lt_of_le {a b c : Level} : a < b → b ≤ c → a < c := Nat.lt_of_lt_of_le

theorem lt_trichotomy (a b : Level) : a < b ∨ a = b ∨ b < a := by
  cases a <;> cases b <;> decide

theorem lt_pure_iff {a : Level} : a < .pure ↔ a ≠ .pure := by cases a <;> decide

/-- The meet is the greatest level below both. -/
theorem le_meet {a b c : Level} : a ≤ b.meet c ↔ a ≤ b ∧ a ≤ c := by
  cases a <;> cases b <;> cases c <;> decide

/-- The two flags of a level give the level back. -/
theorem ofSupport_decide (l : Level) :
    ofSupport (decide (.readonly ≤ l)) (decide (.pure ≤ l)) = l := by
  cases l <;> rfl

end Level

/-! ## What a node is by itself -/

namespace Table

/-- What a node does that a pure body may not do, whatever stands inside it. -/
def construct? (t : Table) (caller : String) : Expr → Option Violation
  | .set _ v _ => if v.owner = caller then none else some (.setsVariable v.name)
  | .get _ v =>
    if v.reassignable ∧ v.owner ≠ caller then some (.readsVariable v.name) else none
  | .call _ callee receiver _ =>
    let level := t.effectiveLevel callee receiver caller
    if level < .pure then some (.callsWeaker callee.name level) else none
  | .unhandled _ node _ => some (.unrecognized node)
  | _ => none

/-- The best level of a body with the node in it, as far as the node alone decides. -/
def constructLevel (t : Table) (caller : String) : Expr → Level
  | .set _ v _ => if v.owner = caller then .pure else .none
  | .get _ v => if v.reassignable ∧ v.owner ≠ caller then .readonly else .pure
  | .call _ callee receiver _ => t.effectiveLevel callee receiver caller
  | .unhandled _ _ _ => .none
  | _ => .pure

theorem constructLevel_of_none {t : Table} {caller : String} {e : Expr}
    (h : t.construct? caller e = none) : t.constructLevel caller e = .pure := by
  cases e with
  | const => rfl
  | get o v =>
    simp only [construct?] at h
    split at h
    · simp at h
    · simp [constructLevel, *]
  | set o v value =>
    simp only [construct?] at h
    split at h
    · simp [constructLevel, *]
    · simp at h
  | call o callee receiver arguments =>
    simp only [construct?] at h
    split at h
    · simp at h
    · rename_i hlt
      rw [Level.lt_pure_iff, not_not] at hlt
      exact hlt
  | ret => rfl
  | cast => rfl
  | block => rfl
  | declare => rfl
  | unhandled o node inside => simp [construct?] at h

theorem constructLevel_of_some {t : Table} {caller : String} {e : Expr} {v : Violation}
    (h : t.construct? caller e = some v) : t.constructLevel caller e = v.supported := by
  cases e with
  | get o x =>
    simp only [construct?] at h
    split at h
    · cases h
      simp [constructLevel, Violation.supported, *]
    · simp at h
  | set o x value =>
    simp only [construct?] at h
    split at h
    · simp at h
    · cases h
      simp [constructLevel, Violation.supported, *]
  | call o callee receiver arguments =>
    simp only [construct?] at h
    split at h
    · cases h
      rfl
    · simp at h
  | unhandled o node inside =>
    cases h
    rfl
  | _ => simp [construct?] at h

/-! ## What a list of nodes is together -/

/-- The best level that all of the nodes allow. -/
def levelOf (t : Table) (caller : String) (nodes : List Expr) : Level :=
  (nodes.map (t.constructLevel caller)).foldl Level.meet .pure

/-- What a node does and where, if it breaks the declared level. -/
def findingBelow? (t : Table) (caller : String) (declared : Level) (e : Expr) : Option Finding :=
  if t.constructLevel caller e < declared then
    (t.construct? caller e).map fun v => ⟨v, e.offset⟩
  else none

/-- What among the nodes breaks the declared level, in their order. -/
def findingsBelow (t : Table) (caller : String) (declared : Level) (nodes : List Expr) :
    List Finding :=
  nodes.filterMap (t.findingBelow? caller declared)

theorem levelOf_snoc (t : Table) (caller : String) (nodes : List Expr) (e : Expr) :
    t.levelOf caller (nodes ++ [e]) = (t.levelOf caller nodes).meet (t.constructLevel caller e) := by
  simp [levelOf]

theorem findingsBelow_snoc (t : Table) (caller : String) (declared : Level) (nodes : List Expr)
    (e : Expr) :
    t.findingsBelow caller declared (nodes ++ [e]) =
      t.findingsBelow caller declared nodes ++ (t.findingBelow? caller declared e).toList := by
  unfold findingsBelow
  rw [List.filterMap_append]
  cases h : t.findingBelow? caller declared e <;> simp [h]

end Table

/-! ## The invariant of a walk -/

/-- The walk has seen exactly these nodes: each flag says whether all of them allow its level, and
the findings are those of the nodes, in order. -/
structure Walk.Saw (t : Table) (caller : String) (declared : Level) (seen : List Expr) (w : Walk) :
    Prop where
  declared_eq : w.declared = declared
  readonly_eq : w.supportsReadonly = decide (.readonly ≤ t.levelOf caller seen)
  pure_eq : w.supportsPure = decide (.pure ≤ t.levelOf caller seen)
  findings_eq : w.findings.toList = t.findingsBelow caller declared seen
  visited_eq : w.visited = seen.length

namespace Walk

theorem saw_start (t : Table) (caller : String) (declared : Level) :
    Saw t caller declared [] (start declared) :=
  ⟨rfl, rfl, rfl, rfl, rfl⟩

theorem Saw.inferred_eq {t : Table} {caller : String} {declared : Level} {seen : List Expr}
    {w : Walk} (h : Saw t caller declared seen w) : w.inferred = t.levelOf caller seen := by
  rw [inferred, h.readonly_eq, h.pure_eq, Level.ofSupport_decide]

/-- A flag for `bar` goes down just when the new level is below `bar`. -/
theorem flag_limit (l level bar : Level) :
    (if level < bar then false else decide (bar ≤ l)) = decide (bar ≤ l.meet level) := by
  by_cases h : level < bar
  · have hn : ¬ bar ≤ level := fun hle => Level.not_lt.mpr hle h
    simp [h, Level.le_meet, hn]
  · simp [h, Level.le_meet, Level.not_lt.mp h]

/-- Recording caps the flags, and adds to the findings only below the declared level. -/
theorem record_eq (w : Walk) (v : Violation) (o : UInt64) :
    w.record v o = { w.limitTo v.supported with
      findings := if v.supported < w.declared then w.findings.push ⟨v, o⟩ else w.findings } := by
  by_cases h : v.supported < w.declared <;> simp [record, limitTo, h]

end Walk

namespace Table

variable {t : Table} {caller : String} {declared : Level} {seen : List Expr} {w : Walk}

/-! ## One node -/

/-- What a walk does at a node before it goes inside. -/
def enter (t : Table) (caller : String) (w : Walk) (e : Expr) : Walk :=
  match t.construct? caller e with
  | none => w.count
  | some v => w.count.record v e.offset

/-- A node that is nothing by itself leaves the flags and the findings as they were. -/
theorem saw_count {e : Expr} (h : w.Saw t caller declared seen)
    (he : t.construct? caller e = none) : w.count.Saw t caller declared (seen ++ [e]) := by
  have hl : t.levelOf caller (seen ++ [e]) = t.levelOf caller seen := by
    rw [levelOf_snoc, constructLevel_of_none he]
    cases t.levelOf caller seen <;> rfl
  refine ⟨h.declared_eq, ?_, ?_, ?_, ?_⟩
  · rw [hl]; exact h.readonly_eq
  · rw [hl]; exact h.pure_eq
  · rw [findingsBelow_snoc, findingBelow?, he]
    simpa [Walk.count] using h.findings_eq
  · simp [Walk.count, h.visited_eq]

/-- A violation lowers the flags to its level, and is kept if it breaks the declared one. -/
theorem saw_record {e : Expr} {v : Violation} (h : w.Saw t caller declared seen)
    (he : t.construct? caller e = some v) :
    (w.count.record v e.offset).Saw t caller declared (seen ++ [e]) := by
  have hv : t.constructLevel caller e = v.supported := constructLevel_of_some he
  have hl : t.levelOf caller (seen ++ [e]) = (t.levelOf caller seen).meet v.supported := by
    rw [levelOf_snoc, hv]
  rw [Walk.record_eq]
  refine ⟨h.declared_eq, ?_, ?_, ?_, ?_⟩
  · rw [hl, ← Walk.flag_limit, ← h.readonly_eq]
    rfl
  · rw [hl, ← Walk.flag_limit, ← h.pure_eq]
    rfl
  · have hd : w.count.declared = declared := h.declared_eq
    rw [findingsBelow_snoc, findingBelow?, he, hv, hd, ← h.findings_eq]
    split
    · simp [Walk.count]
    · simp [Walk.count]
  · simp [Walk.limitTo, Walk.count, h.visited_eq]

theorem saw_enter (h : w.Saw t caller declared seen) (e : Expr) :
    (t.enter caller w e).Saw t caller declared (seen ++ [e]) := by
  unfold enter
  split
  · exact saw_count h ‹_›
  · exact saw_record h ‹_›

/-! ## The whole body -/

theorem walkOption_eq (t : Table) (caller : String) (w : Walk) (r : Option Expr) :
    t.walkOption caller w r = r.toList.foldl (t.walk caller) w := by
  cases r <;> rfl

theorem walkList_eq (t : Table) (caller : String) (w : Walk) (es : List Expr) :
    t.walkList caller w es = es.foldl (t.walk caller) w := by
  induction es generalizing w with
  | nil => rfl
  | cons e es ih => rw [walkList, ih, List.foldl_cons]

/-- The walk enters a node and then walks through its children from left to right. -/
theorem walk_eq (t : Table) (caller : String) (w : Walk) (e : Expr) :
    t.walk caller w e = e.children.foldl (t.walk caller) (t.enter caller w e) := by
  cases e with
  | const o v => rfl
  | get o v =>
    simp only [walk, Walk.readVariable, enter, construct?, Expr.children, List.foldl_nil]
    by_cases hr : v.reassignable <;> by_cases ho : v.owner = caller <;>
      simp [Variable.ownedBy, hr, ho, Expr.offset]
  | set o v value =>
    simp only [walk, Walk.setVariable, enter, construct?, Expr.children, List.foldl_cons,
      List.foldl_nil]
    by_cases ho : v.owner = caller <;> simp [Variable.ownedBy, ho, Expr.offset]
  | call o callee receiver arguments =>
    simp only [walk, Walk.call, enter, construct?, Expr.children, List.foldl_append,
      walkOption_eq, walkList_eq, Level.lt_pure_iff]
    by_cases hp : t.effectiveLevel callee receiver caller = .pure <;> simp [hp, Expr.offset]
  | ret o value => rfl
  | cast o operand type => rfl
  | block o statements => exact walkList_eq t caller _ statements
  | declare o v initial => exact walkOption_eq t caller _ initial
  | unhandled o node inside => exact walkList_eq t caller _ inside

/-- Walks one after the other see the nodes one after the other. -/
theorem saw_foldl (es : List Expr) (h : w.Saw t caller declared seen)
    (step : ∀ e ∈ es, ∀ {seen w}, Walk.Saw t caller declared seen w →
      (t.walk caller w e).Saw t caller declared (seen ++ e.preorder)) :
    (es.foldl (t.walk caller) w).Saw t caller declared (seen ++ es.flatMap Expr.preorder) := by
  -- The walk and what it has seen differ from one expression to the next.
  induction es generalizing seen w with
  | nil => simpa using h
  | cons e es ih =>
    rw [List.foldl_cons, List.flatMap_cons, ← List.append_assoc]
    exact ih (step e List.mem_cons_self h) fun e' he' => step e' (List.mem_cons_of_mem e he')

/-- A walk through an expression sees its nodes, each once and in order. -/
theorem saw_walk (e : Expr) (h : w.Saw t caller declared seen) :
    (t.walk caller w e).Saw t caller declared (seen ++ e.preorder) := by
  induction e using Expr.childrenInduction generalizing seen w with
  | step e ih =>
    rw [walk_eq, Expr.preorder_eq, List.append_cons]
    exact saw_foldl e.children (saw_enter h e) fun c hc _ _ hs => ih c hc hs

/-- The classification of a function, read off the nodes of its body. -/
theorem classify_eq {decl : Decl} {body : Expr} (h : decl.body = some body) (declared : Level) :
    t.classify decl declared =
      ⟨declared, t.levelOf decl.id body.preorder, t.findingsBelow decl.id declared body.preorder,
        body.preorder.length⟩ := by
  have hs := saw_walk body (Walk.saw_start t decl.id declared)
  rw [List.nil_append] at hs
  simp only [classify, h, hs.inferred_eq, hs.findings_eq, hs.visited_eq]

@[simp] theorem classify_declared (t : Table) (decl : Decl) (l : Level) :
    (t.classify decl l).declared = l := by
  unfold classify
  split <;> rfl

/-! ## What the nodes decide together -/

theorem isSome_findingBelow? (t : Table) (caller : String) (declared : Level) (e : Expr) :
    (t.findingBelow? caller declared e).isSome = decide (t.constructLevel caller e < declared) := by
  by_cases h : t.constructLevel caller e < declared
  · rcases hc : t.construct? caller e with _ | v
    -- A node that is nothing by itself is pure, and no level is above that.
    · rw [constructLevel_of_none hc] at h
      exact absurd (Level.le_pure declared) (Nat.not_le.mpr h)
    · simp [findingBelow?, hc, h]
  · simp [findingBelow?, h]

/-- No node below the declared level goes without a finding. -/
theorem length_findingsBelow (t : Table) (caller : String) (declared : Level) (nodes : List Expr) :
    (t.findingsBelow caller declared nodes).length =
      nodes.countP fun e => t.constructLevel caller e < declared := by
  rw [findingsBelow, List.length_filterMap_eq_countP]
  exact List.countP_congr fun e _ => by rw [isSome_findingBelow?]

theorem le_levelOf {t : Table} {caller : String} {l : Level} {nodes : List Expr} :
    l ≤ t.levelOf caller nodes ↔ ∀ e ∈ nodes, l ≤ t.constructLevel caller e := by
  induction nodes using List.reverseRecOn with
  | nil => simpa [levelOf] using Level.le_pure l
  | append_singleton nodes e ih =>
    rw [levelOf_snoc, Level.le_meet, ih]
    simp [or_imp, forall_and]

/-- Nodes break a level just when they do not support it. -/
theorem findingsBelow_eq_nil {t : Table} {caller : String} {l : Level} {nodes : List Expr} :
    t.findingsBelow caller l nodes = [] ↔ l ≤ t.levelOf caller nodes := by
  rw [findingsBelow, List.filterMap_eq_nil_iff, le_levelOf]
  refine forall₂_congr fun e _ => ?_
  rw [← Option.not_isSome_iff_eq_none, isSome_findingBelow?, decide_eq_true_iff, Level.not_lt]

theorem findingBelow?_eq_some {t : Table} {caller : String} {l : Level} {e : Expr} {f : Finding}
    (h : t.findingBelow? caller l e = some f) :
    f.violation.supported = t.constructLevel caller e := by
  unfold findingBelow? at h
  split at h
  · obtain ⟨v, hv, rfl⟩ := Option.map_eq_some_iff.mp h
    exact (constructLevel_of_some hv).symm
  · simp at h

/-- A lower level filters the findings of a higher one. -/
theorem findingsBelow_mono (t : Table) (caller : String) {l₁ l₂ : Level} (h : l₁ ≤ l₂)
    (nodes : List Expr) :
    t.findingsBelow caller l₁ nodes =
      (t.findingsBelow caller l₂ nodes).filter fun f => f.violation.supported < l₁ := by
  unfold findingsBelow
  rw [List.filter_filterMap]
  refine List.filterMap_congr fun e _ => ?_
  by_cases h1 : t.constructLevel caller e < l₁
  · have h2 : t.constructLevel caller e < l₂ := Level.lt_of_lt_of_le h1 h
    rcases hc : t.construct? caller e with _ | v
    · simp [findingBelow?, hc]
    · rw [constructLevel_of_some hc] at h1 h2
      simp [findingBelow?, hc, constructLevel_of_some hc, h1, h2, Option.filter_some]
  · rcases hf : t.findingBelow? caller l₂ e with _ | f
    · simp [findingBelow?, h1]
    · simp [findingBelow?, h1, findingBelow?_eq_some hf, Option.filter_some]

end Table

/-- A body breaks a level just when it does not support it. -/
theorem Table.classify_findings_eq_nil (t : Table) {decl : Decl} (h : decl.hasBody = true)
    (l : Level) : (t.classify decl l).findings = [] ↔ l ≤ (t.classify decl l).inferred := by
  obtain ⟨body, hb⟩ := Option.isSome_iff_exists.mp h
  rw [classify_eq hb]
  exact findingsBelow_eq_nil

/-! ## The laws -/

/-- The classification of a body is a reading of its nodes, each before what is inside it, from left
to right. The level is the best that all of them allow. Each node below the declared level is a
finding, in the order of the nodes, and nothing else is. -/
theorem a_body_is_classified_by_its_nodes (t : Table) (decl : Decl) (body : Expr)
    (declared : Level) (h : decl.body = some body) :
    t.classify decl declared =
      { declared
        inferred := (body.preorder.map (t.constructLevel decl.id)).foldl Level.meet .pure
        findings := body.preorder.filterMap fun e =>
          if t.constructLevel decl.id e < declared then
            (t.construct? decl.id e).map fun v => ⟨v, e.offset⟩
          else none
        visited := body.preorder.length } ∧
      (t.classify decl declared).findings.length =
        body.preorder.countP (fun e => t.constructLevel decl.id e < declared) ∧
      body.preorder.length = body.nodeCount := by
  have hc := Table.classify_eq (t := t) h declared
  refine ⟨hc, ?_, body.length_preorder⟩
  rw [hc]
  exact t.length_findingsBelow decl.id declared body.preorder

/-- A body with a captured variable set and read, a call on a builder that was handed in, and a node
that is not handled. -/
def mixedBody : Expr :=
  .block 0
    [.set 2 ⟨"total", "m", true, false⟩
      (.call 4 ⟨"append", some ⟨"kotlin.text.StringBuilder", .regular⟩, []⟩
        (some (.get 6 ⟨"b", "m.f", false, true⟩)) [.get 8 ⟨"total", "m", true, false⟩]),
      .unhandled 10 "try" [.ret 12 (.const 14 .null)]]

/-- The function `m.f` with that body. -/
def mixed : Decl := ⟨"m.f", .ofName "f", [], some mixedBody, 0⟩

theorem mixed_is_classified_by_its_nodes :
    mixed.body = some mixedBody ∧
      Table.default.classify mixed .readonly =
        ⟨.readonly, .none,
          [⟨.setsVariable "total", 2⟩, ⟨.callsWeaker "append" .none, 4⟩, ⟨.unrecognized "try", 10⟩],
          8⟩ := by
  refine ⟨rfl, ?_⟩
  rw [(a_body_is_classified_by_its_nodes .default mixed mixedBody .readonly rfl).1,
    ← Expr.nodes_eq_preorder]
  decide

/-- The declared level only decides what is reported. The inferred level does not depend on it, it is
the greatest level without a finding, and a lower level filters the findings of a higher one. -/
theorem the_declared_level_only_filters (t : Table) (decl : Decl) (h : decl.hasBody = true) :
    (∀ l₁ l₂, (t.classify decl l₁).inferred = (t.classify decl l₂).inferred) ∧
      (∀ l, (t.classify decl l).findings = [] ↔ l ≤ (t.classify decl l).inferred) ∧
      (∀ l₁ l₂, l₁ ≤ l₂ → (t.classify decl l₁).findings =
        (t.classify decl l₂).findings.filter fun f => f.violation.supported < l₁) ∧
      (t.classify decl .none).findings = [] := by
  obtain ⟨body, hb⟩ := Option.isSome_iff_exists.mp h
  have hc := Table.classify_eq (t := t) hb
  refine ⟨?_, ?_, ?_, ?_⟩
  · intro l₁ l₂
    rw [hc, hc]
  · exact t.classify_findings_eq_nil h
  · intro l₁ l₂ hle
    rw [hc, hc]
    exact t.findingsBelow_mono decl.id hle body.preorder
  · exact (t.classify_findings_eq_nil h .none).mpr (Level.none_le _)

theorem a_lower_level_filters_the_findings_of_mixed :
    mixed.hasBody = true ∧ Level.readonly ≤ .pure ∧
      (Table.default.classify mixed .readonly).findings =
        (Table.default.classify mixed .pure).findings.filter fun f =>
          f.violation.supported < .readonly :=
  ⟨rfl, by decide,
    (the_declared_level_only_filters .default mixed rfl).2.2.1 .readonly .pure (by decide)⟩

end Purity
