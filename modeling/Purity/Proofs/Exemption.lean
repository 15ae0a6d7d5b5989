-- The laws of the exemption for types that keep their state to themselves. A call of such a member
-- counts as pure where its receiver is a local variable of the caller. Only the name of the
-- receiver is looked at, not what was put under that name, so an object that was handed in passes
-- for one of the caller's own once it has a local name.
import Purity.Proofs.Walk

namespace Purity

/-! ## Objects from outside -/

namespace Expr

/-- The variable that a node gives a value to, and the value. -/
def assignment? : Expr → Option (Variable × Expr)
  | .set _ v value => some (v, value)
  | .declare _ v (some value) => some (v, value)
  | _ => none

/-- Whether an expression is a plain read of what a function did not make itself: a parameter, or a
variable of another function. -/
def readsHanded (id : String) : Expr → Bool
  | .get _ v => v.parameter || v.owner ≠ id
  | _ => false

/-- Somewhere in the body the variable is given an object from outside. -/
def Renames (id : String) (body : Expr) (v : Variable) : Prop :=
  ∃ node ∈ body.nodes, ∃ w value, node.assignment? = some (w, value) ∧
    w.name = v.name ∧ w.owner = v.owner ∧ value.readsHanded id = true

/-- The receiver is an object from outside, under its own name or another. -/
def FromOutside (id : String) (body : Expr) (receiver : Option Expr) : Prop :=
  ∃ o v, receiver = some (.get o v) ∧ ((Expr.get o v).readsHanded id = true ∨ body.Renames id v)

theorem readsHanded_get (id : String) (o : UInt64) (v : Variable) :
    (Expr.get o v).readsHanded id = !v.createdIn id := by
  by_cases ho : v.owner = id <;> simp [readsHanded, Variable.createdIn, Variable.ownedBy, ho]

end Expr

/-! ## The exemption -/

/-- The function changes the state of its instance, which it did not make, and it is not declared
pure. -/
structure Table.Alters (t : Table) (s : Signature) : Prop where
  encapsulated : s.isEncapsulated = true
  not_constructor : s.name ≠ constructorName
  below_pure : t.declaredLevel s < .pure

namespace Table

variable {t : Table} {callee : Signature} {receiver : Option Expr} {caller : String}

theorem receiverIsLocal_iff :
    receiverIsLocal receiver caller = true ↔
      ∃ o v, receiver = some (.get o v) ∧ v.createdIn caller = true := by
  constructor
  · intro h
    unfold receiverIsLocal at h
    split at h
    · rename_i o v
      exact ⟨o, v, rfl, h⟩
    · simp at h
  · rintro ⟨o, v, rfl, h⟩
    exact h

theorem effectiveLevel_of_alters (h : t.Alters callee) :
    t.effectiveLevel callee receiver caller =
      if receiverIsLocal receiver caller then .pure else t.declaredLevel callee := by
  have hpure : t.declaredLevel callee ≠ .pure := Level.lt_pure_iff.mp h.below_pure
  simp [effectiveLevel, Signature.createsEncapsulated, hpure, h.encapsulated, h.not_constructor]

/-- The exemption is given to local variables of the caller and to nothing else. -/
theorem effectiveLevel_eq_pure_iff (h : t.Alters callee) :
    t.effectiveLevel callee receiver caller = .pure ↔
      ∃ o v, receiver = some (.get o v) ∧ v.createdIn caller = true := by
  rw [effectiveLevel_of_alters h, ← receiverIsLocal_iff]
  by_cases hl : receiverIsLocal receiver caller = true
  · simp [hl]
  · simp [hl, Level.lt_pure_iff.mp h.below_pure]

/-- A pure body has nothing in it that is less than pure. -/
theorem constructLevel_of_inferred_pure {decl : Decl} {body : Expr} {l : Level}
    (h : decl.body = some body) (hp : (t.classify decl l).inferred = .pure) {node : Expr}
    (hn : node ∈ body.nodes) : t.constructLevel decl.id node = .pure := by
  rw [classify_eq h, ← Expr.nodes_eq_preorder] at hp
  have hle : Level.pure ≤ t.levelOf decl.id body.nodes := Nat.le_of_eq (congrArg Level.rank hp.symm)
  have hnode := le_levelOf.mp hle node hn
  by_contra hne
  exact Level.not_lt.mpr hnode (Level.lt_pure_iff.mpr hne)

/-- In a pure body, a member that alters its instance is called on local variables alone. -/
theorem receiver_of_inferred_pure {decl : Decl} {body : Expr} {l : Level}
    (h : decl.body = some body) (hp : (t.classify decl l).inferred = .pure) {o : UInt64}
    {arguments : List Expr} (hn : .call o callee receiver arguments ∈ body.nodes)
    (ha : t.Alters callee) :
    ∃ o v, receiver = some (.get o v) ∧ v.createdIn decl.id = true :=
  (effectiveLevel_eq_pure_iff ha).mp (constructLevel_of_inferred_pure h hp hn)

end Table

/-! ## The law -/

/-- A call that alters its receiver counts as pure just when the receiver is a local variable of the
function. So in a pure body nothing is altered under the name of a parameter or of a captured
variable. An object from outside is altered there just when it was given to a local variable on
which such a call is made. -/
theorem the_exemption_asks_for_a_local_name (t : Table) (decl : Decl) (body : Expr)
    (h : decl.body = some body) :
    (∀ o callee receiver arguments, .call o callee receiver arguments ∈ body.nodes →
      t.Alters callee →
      (t.effectiveLevel callee receiver decl.id = .pure ↔
        ∃ o v, receiver = some (.get o v) ∧ v.createdIn decl.id = true)) ∧
    ∀ l, (t.classify decl l).inferred = .pure →
      (∀ o callee receiver arguments, .call o callee receiver arguments ∈ body.nodes →
        t.Alters callee → ∀ value, receiver = some value → value.readsHanded decl.id = false) ∧
      ((∃ o callee receiver arguments, .call o callee receiver arguments ∈ body.nodes ∧
          t.Alters callee ∧ body.FromOutside decl.id receiver) ↔
        ∃ o callee o' v arguments, .call o callee (some (.get o' v)) arguments ∈ body.nodes ∧
          t.Alters callee ∧ v.createdIn decl.id = true ∧ body.Renames decl.id v) := by
  refine ⟨fun o callee receiver arguments _ ha => Table.effectiveLevel_eq_pure_iff ha, ?_⟩
  intro l hp
  refine ⟨?_, ⟨?_, ?_⟩⟩
  · rintro o callee receiver arguments hn ha value rfl
    obtain ⟨o', v, hr, hv⟩ := Table.receiver_of_inferred_pure h hp hn ha
    cases hr
    rw [Expr.readsHanded_get, hv]
    rfl
  · rintro ⟨o, callee, receiver, arguments, hn, ha, o', v, rfl, hout⟩
    obtain ⟨o'', v', hr, hv⟩ := Table.receiver_of_inferred_pure h hp hn ha
    cases hr
    rw [Expr.readsHanded_get, hv] at hout
    exact ⟨o, callee, o', v, arguments, hn, ha, hv, hout.resolve_left (by simp)⟩
  · rintro ⟨o, callee, o', v, arguments, hn, ha, _, hren⟩
    exact ⟨o, callee, some (.get o' v), arguments, hn, ha, o', v, rfl, .inr hren⟩

/-- The variable `b` of the function `m.f`. -/
def localBuilder : Variable := .ofLocal "b" "m.f" false

/-- The member that changes a builder. -/
def builderAppend : Signature := ⟨"append", some ⟨"kotlin.text.StringBuilder", .regular⟩, []⟩

def appendCall : Expr :=
  .call 3 builderAppend (some (.get 4 localBuilder)) [.const 5 (.string "x")]

/-- The function `m.f`, to which a builder `p` is handed. It appends to what `initial` gives. -/
def appending (initial : Expr) : Decl :=
  ⟨"m.f", .ofName "f", [⟨"p", some "kotlin.text.StringBuilder"⟩],
    some (.block 0 [.declare 1 localBuilder (some initial), appendCall]), 0⟩

/-- A builder that the function makes. -/
def ownBuilder : Expr :=
  .call 2 ⟨"<init>", some ⟨"kotlin.text.StringBuilder", .regular⟩, []⟩ none []

/-- The builder that is handed to the function. -/
def handedBuilder : Expr := .get 2 (.ofParameter "p" "m.f")

theorem an_own_builder_is_exempt : ∃ body, (appending ownBuilder).body = some body ∧
    (Table.default.classify (appending ownBuilder) .pure).inferred = .pure ∧
    ¬ ∃ o callee receiver arguments, .call o callee receiver arguments ∈ body.nodes ∧
      Table.default.Alters callee ∧ body.FromOutside "m.f" receiver := by
  have hpure : (Table.default.classify (appending ownBuilder) .pure).inferred = .pure := by decide
  have hlaw := (the_exemption_asks_for_a_local_name .default (appending ownBuilder) _ rfl).2 .pure
    hpure
  refine ⟨_, rfl, hpure, ?_⟩
  rw [show "m.f" = (appending ownBuilder).id from rfl, hlaw.2]
  rintro ⟨_, _, _, v, _, _, _, _, node, hnode, w, value, hassign, _, _, hreads⟩
  -- The one assignment of the body is of a call.
  simp only [appendCall, ownBuilder, Expr.nodes, Expr.nodesList, Expr.nodesOption, List.mem_cons,
    List.mem_append, List.not_mem_nil, or_false] at hnode
  rcases hnode with rfl | (rfl | rfl) | rfl | rfl | rfl
  all_goals simp only [Expr.assignment?, Option.some.injEq, Prod.mk.injEq, reduceCtorEq] at hassign
  obtain ⟨_, rfl⟩ := hassign
  cases hreads

/-- A builder that was handed in has a local name in `m.f`. The call on that name counts as pure,
and so does the whole function, although the call alters what `m.f` did not make. -/
theorem a_handed_builder_is_exempt_under_a_local_name :
    ∃ body, (appending handedBuilder).body = some body ∧ appendCall ∈ body.nodes ∧
      Table.default.Alters builderAppend ∧ localBuilder.createdIn "m.f" = true ∧
      Table.default.effectiveLevel builderAppend (some (.get 4 localBuilder)) "m.f" = .pure ∧
      body.Renames "m.f" localBuilder ∧
      (Table.default.classify (appending handedBuilder) .pure).inferred = .pure := by
  refine ⟨_, rfl, ?_, ⟨by decide, by decide, by decide⟩, by decide, by decide, ?_, by decide⟩
  · simp [appendCall, Expr.nodes, Expr.nodesList]
  · refine ⟨.declare 1 localBuilder (some handedBuilder), ?_, _, _, rfl, rfl, rfl, rfl⟩
    simp [Expr.nodes, Expr.nodesList]

end Purity
