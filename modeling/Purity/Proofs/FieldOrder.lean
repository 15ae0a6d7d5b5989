-- Module descriptions do not depend on the order of members, nor on members that are no fields. The
-- fields of a declaration and of its signature share one object, and the kind of an expression may
-- stand behind what belongs to it; both come out the same wherever the members stand, at any depth.
import Purity.Proofs.ModuleText
import Purity.Proofs.Variation

namespace Purity

open Json

namespace Json

/-! ## Names and arguments -/

theorem extra_eq_nil {members extra : List (String × Json)}
    (hextra : ∀ m ∈ extra, ∃ fields, Form.any.fields? members = some fields ∧
      m.1 ∉ fields.map Prod.fst) : extra = [] := by
  refine List.eq_nil_iff_forall_not_mem.mpr fun m hm => ?_
  obtain ⟨fields, hfields, _⟩ := hextra m hm
  cases hfields

theorem steady_unit : Steady unit .any := by
  intro j j' _ hvaries src
  cases hvaries with
  | same => rfl
  | array => cases src <;> rfl
  | @object _ members kept extra members' hkeys _ hextra hperm =>
    have hlength : members'.length = members.length := by
      rw [hperm.length_eq, extra_eq_nil hextra, List.append_nil, ← List.length_map Prod.fst, hkeys,
        List.length_map]
    cases members with
    | nil =>
      rw [List.eq_nil_of_length_eq_zero hlength]
    | cons m ms =>
      obtain ⟨m', ms', rfl⟩ := List.exists_cons_of_length_eq_add_one hlength
      cases src <;> rfl

variable {α : Type}

theorem toOption_choice_single (variants : List (String × α)) (src : Source) (m : String × Json) :
    (choice variants src (.object (toMembers [m]))).toOption =
      (byName variants m.1).toOption.bind fun a =>
        (unit src (toNode m.2)).toOption.map fun _ => a := by
  obtain ⟨key, j⟩ := m
  have hchoice : choice variants src (.object (toMembers [(key, j)])) =
      (byName variants key).bind fun a => (unit src (toNode j)).bind fun _ => .ok a := by
    cases src <;> rfl
  rw [hchoice, toOption_bind]
  congr 1
  funext a
  cases unit src (toNode j) <;> rfl

theorem toOption_choice_of_length (variants : List (String × α)) (src : Source)
    {members : List (String × Json)} (h : members.length ≠ 1) :
    (choice variants src (.object (toMembers members))).toOption = none := by
  cases members with
  | nil => cases src <;> rfl
  | cons m ms =>
    cases ms with
    | nil => simp at h
    | cons m' ms =>
      cases src with
      | text =>
        have hchoice : choice variants .text (.object (toMembers (m :: m' :: ms))) =
            (byName variants m.1).bind fun _ => (unit .text (toNode m.2)).bind fun _ =>
              .error (.fault .malformed) := rfl
        rw [hchoice]
        cases byName variants m.1 with
        | error e => rfl
        | ok a => cases unit .text (toNode m.2) <;> rfl
      | held => rfl
      | stored => rfl

theorem steady_choice (variants : List (String × α)) : Steady (choice variants) .any := by
  intro j j' hdistinct hvaries src
  cases hvaries with
  | same => rfl
  | array => cases src <;> rfl
  | @object _ members kept extra members' hkeys hkept hextra hperm =>
    rw [distinct_object] at hdistinct
    rw [extra_eq_nil hextra, List.append_nil] at hperm
    have hlength : kept.length = members.length := by simpa using congrArg List.length hkeys
    rw [toNode, toNode]
    by_cases hone : members.length = 1
    · obtain ⟨m, rfl⟩ := List.length_eq_one_iff.mp hone
      obtain ⟨m', rfl⟩ := List.length_eq_one_iff.mp (hlength.trans hone)
      have hkey : m'.1 = m.1 := by simpa using hkeys
      have hvalue := hkept (m, m') List.mem_cons_self
      rw [List.perm_singleton.mp hperm, toOption_choice_single, toOption_choice_single, hkey,
        steady_unit (hdistinct.2 m List.mem_cons_self) hvalue src]
    · have hone' : members'.length ≠ 1 := by
        rw [hperm.length_eq, hlength]
        exact hone
      rw [toOption_choice_of_length variants src hone, toOption_choice_of_length variants src hone']

end Json

theorem MarkValue.scalar_read : Scalar MarkValue.read := by
  constructor
  · intro src items
    unfold MarkValue.read
    cases takeIn src (.array items) <;> rfl
  · intro src members
    unfold MarkValue.read
    cases takeIn src (.object members) <;> rfl

theorem Literal.scalar_read : Scalar Literal.read := by
  constructor
  · intro src items
    unfold Literal.read
    cases takeIn src (.array items) <;> rfl
  · intro src members
    unfold Literal.read
    cases takeIn src (.object members) <;> rfl

theorem Arguments.insert_comm (arguments : Arguments) {a b : String} (hne : a ≠ b)
    (x y : MarkValue) :
    (arguments.insert a x).insert b y = (arguments.insert b y).insert a x := by
  simp only [Arguments.insert, Arguments.mk.injEq]
  exact Entries.insert_comm hne.symm y x arguments.entries

theorem Arguments.steady_read : Steady Arguments.read .any := by
  intro j j' hdistinct hvaries src
  cases hvaries with
  | same => rfl
  | array => rfl
  | object hkeys hkept hextra hperm =>
    rw [distinct_object] at hdistinct
    refine Rearranged.toOption_fold_eq ⟨hkeys, hdistinct.1, hperm⟩ ?_ ?_ ?_ Arguments.empty
    · intro arguments a b hne
      simp only [advance, Option.bind_some, toOption_map]
      cases (MarkValue.read src (toNode a.2)).toOption <;>
        cases (MarkValue.read src (toNode b.2)).toOption <;>
          simp [arguments.insert_comm hne]
    · intro p hp arguments
      have hread := MarkValue.scalar_read.steady _ (hdistinct.2 p.1 (mem_of_mem_zip hp))
        (hkept p hp) src
      simp only [toOption_map, hread]
    · simp [extra_eq_nil hextra]

/-! ## Signatures, variables and parameters -/

theorem Owner.steady_read : Steady Owner.read (.record Owner.forms) := by
  have hfields : Owner.fields.Formed Owner.forms :=
    ⟨_, _, rfl, scalar_text.steady _, _, _, rfl, steady_choice _, rfl⟩
  exact steady_record hfields (by decide)

theorem Mark.steady_read : Steady Mark.read (.record Mark.forms) := by
  have hfields : Mark.fields.Formed Mark.forms :=
    ⟨_, _, rfl, scalar_text.steady _, _, _, rfl, Arguments.steady_read, rfl⟩
  exact steady_record hfields (by decide)

theorem Signature.steady_read : Steady Signature.read (.record Signature.forms) := by
  have hfields : Signature.fields.Formed Signature.forms :=
    ⟨_, _, rfl, scalar_text.steady _, _, _, rfl, Owner.steady_read.nullable, _, _, rfl,
      Mark.steady_read.list, rfl⟩
  exact steady_record hfields (by decide)

theorem Variable.steady_read : Steady Variable.read (.record Variable.forms) := by
  have hfields : Variable.fields.Formed Variable.forms :=
    ⟨_, _, rfl, scalar_text.steady _, _, _, rfl, scalar_text.steady _, _, _, rfl,
      scalar_truth.steady _, _, _, rfl, scalar_truth.steady _, rfl⟩
  exact steady_record hfields (by decide)

theorem Parameter.steady_read : Steady Parameter.read (.record Parameter.forms) := by
  have hfields : Parameter.fields.Formed Parameter.forms :=
    ⟨_, _, rfl, scalar_text.steady _, _, _, rfl, (scalar_text.steady _).nullable, rfl⟩
  exact steady_record hfields (by decide)

namespace Expr

/-! ## The kind of an expression -/

theorem Kind.scalar_read : Scalar fun _ => Kind.read := ⟨fun _ _ => rfl, fun _ _ => rfl⟩

/-- Takes a member on the way to the kind. -/
def Kind.spot (found : Option Kind) (key : String) (value : Node) : Reading (Option Kind) :=
  if key = "kind" then
    match found with
    | some _ => refuse (.repeated "kind")
    | none => (Kind.read value).map some
  else .ok found

theorem Kind.find_eq (members : Members) :
    Kind.find members = (members.fold Kind.spot none).bind fun
      | some kind => .ok kind
      | none => refuse (.missing "kind") := rfl

theorem Kind.spot_of_ne {key : String} (h : key ≠ "kind") (found : Option Kind) (value : Node) :
    Kind.spot found key value = .ok found := if_neg h

theorem Kind.commutes_spot : Commutes Kind.spot := by
  intro found a b hne
  by_cases ha : a.1 = "kind"
  · have hb : b.1 ≠ "kind" := fun hb => hne (ha.trans hb.symm)
    have hskip := advance_of_unchanged (m := b) fun found => Kind.spot_of_ne hb found _
    rw [hskip, hskip]
  · have hskip := advance_of_unchanged (m := a) fun found => Kind.spot_of_ne ha found _
    rw [hskip, hskip]

/-- The kind that is found is the one under its key. -/
theorem Kind.toOption_find {members : List (String × Json)}
    (hkeys : (members.map Prod.fst).Nodup) :
    (Kind.find (toMembers members)).toOption = kindAmong members := by
  rw [Kind.find_eq, toOption_bind, kindAmong]
  induction members with
  | nil => rfl
  | cons m ms ih =>
    obtain ⟨key, j⟩ := m
    rw [List.map_cons, List.nodup_cons] at hkeys
    rw [toMembers, Members.fold]
    by_cases hkey : key = "kind"
    · have hrest : ∀ kind : Kind, (toMembers ms).fold Kind.spot (some kind) = .ok (some kind) := by
        intro kind
        refine fold_unchanged fun m hm => Kind.spot_of_ne (fun h => hkeys.1 ?_) _ _
        exact List.mem_map.mpr ⟨m, hm, h.trans hkey.symm⟩
      have hspot : Kind.spot none key (toNode j) = (Kind.read (toNode j)).map some := if_pos hkey
      rw [hspot, hkey, List.lookup_cons_self, Option.bind_some]
      cases Kind.read (toNode j) with
      | error e => rfl
      | ok kind =>
        simp only [Except.map, bind, Except.bind, hrest]
        rfl
    · rw [Kind.spot_of_ne hkey, List.lookup_cons, beq_eq_false_iff_ne.mpr (Ne.symm hkey)]
      exact ih hkeys.2

/-! ## What belongs to the kind -/

/-- What a member of an expression brings. -/
inductive Content
  | literal (value : Literal)
  | var (value : Variable)
  | callee (value : Signature)
  | label (value : Option String)
  | operand (value : Option Expr)
  | operands (value : List Expr)

/-- The sort of what a member brings. A member that may be null is of the same sort as one that
may not. -/
def Part.sort : Part → Part
  | .maybeLabel => .label
  | .maybeOperand => .operand
  | part => part

def Content.sort : Content → Part
  | .literal _ => .literal
  | .var _ => .var
  | .callee _ => .callee
  | .label _ => .label
  | .operand _ => .operand
  | .operands _ => .operands

namespace Pieces

/-- Whether a member of the part's sort has been met. -/
def has (p : Pieces) : Part → Bool
  | .literal => p.literal.isSome
  | .var => p.var.isSome
  | .callee => p.callee.isSome
  | .label => p.label.isSome
  | .maybeLabel => p.label.isSome
  | .operand => p.operand.isSome
  | .maybeOperand => p.operand.isSome
  | .operands => p.operands.isSome

def set (p : Pieces) : Content → Pieces
  | .literal value => { p with literal := some value }
  | .var value => { p with var := some value }
  | .callee value => { p with callee := some value }
  | .label value => { p with label := some value }
  | .operand value => { p with operand := some value }
  | .operands value => { p with operands := some value }

theorem has_set (p : Pieces) {x : Content} {part : Part} (h : x.sort ≠ part.sort) :
    (p.set x).has part = p.has part := by
  cases x <;> cases part <;> simp_all [Content.sort, Part.sort, set, has]

theorem set_comm (p : Pieces) {x y : Content} (h : x.sort ≠ y.sort) :
    (p.set x).set y = (p.set y).set x := by
  cases x <;> cases y <;> simp_all [Content.sort, set]

end Pieces

/-- Reads what a member brings. -/
def Part.read (value : Node) : Part → Reading Content
  | .literal => (Literal.read .held value).map .literal
  | .var => (Variable.read .held value).map .var
  | .callee => (Signature.read .held value).map .callee
  | .label => (text .held value).map fun s => .label (some s)
  | .maybeLabel => (nullable text .held value).map .label
  | .operand => (Expr.read .held value).map fun e => .operand (some e)
  | .maybeOperand => (nullable Expr.read .held value).map .operand
  | .operands => (list Expr.read .held value).map .operands

theorem Part.sort_of_read {part : Part} {value : Node} {x : Content}
    (h : part.read value = .ok x) : x.sort = part.sort := by
  cases part <;>
    · obtain ⟨_, _, rfl⟩ := map_eq_ok h
      rfl

/-- Takes a member once the kind is known. -/
def Kind.take (kind : Kind) (p : Pieces) (key : String) (value : Node) : Reading Pieces :=
  match kind.parts.lookup key with
  | none => .ok p
  | some part => if p.has part then refuse (.repeated key) else (part.read value).map p.set

theorem readMaybe_eq (j : Json) : readMaybe (toNode j) = nullable read .held (toNode j) := by
  cases j <;> simp [toNode, readMaybe, nullable, read, Node.unwanted, refuse, Except.map]

theorem readMany_eq (j : Json) : readMany (toNode j) = list read .held (toNode j) := by
  cases j with
  | array items =>
    rw [toNode, readMany, list]
    induction items with
    | nil => rw [toItems, readItems, Items.readAll]
    | cons j items ih => rw [toItems, readItems, Items.readAll, ih]
  | _ => simp [toNode, readMany, list]

theorem once_bind {α β : Type} (key : String) (before : Option α) (value : Reading α)
    (next : Option α → Reading β) :
    (once key before value).bind next =
      if before.isSome then refuse (.repeated key) else value.bind fun a => next (some a) := by
  cases before <;> cases value <;> rfl

theorem Kind.take_bind {β : Type} {kind : Kind} {key : String} {part : Part}
    (hpart : kind.parts.lookup key = some part) (p : Pieces) (value : Node)
    (next : Pieces → Reading β) :
    (kind.take p key value).bind next =
      if p.has part then refuse (.repeated key)
      else (part.read value).bind fun x => next (p.set x) := by
  rw [Kind.take, hpart]
  by_cases h : p.has part
  · simp only [h, if_true]
    rfl
  · simp only [h, Bool.false_eq_true, if_false, map_bind]

theorem readPieces_cons (kind : Kind) (p : Pieces) (key : String) (j : Json)
    (members : List (String × Json)) :
    readPieces kind p (toMembers ((key, j) :: members)) =
      (kind.take p key (toNode j)).bind fun p => readPieces kind p (toMembers members) := by
  cases hpart : kind.parts.lookup key with
  | none =>
    rw [readPieces_of_lookup hpart, Kind.take, hpart]
    rfl
  | some part =>
    rw [Kind.take_bind hpart, toMembers, readPieces, hpart]
    cases part <;>
      · simp only [bind, once_bind, map_bind, Part.read, readMaybe_eq, readMany_eq]
        rfl

theorem readPieces_eq (kind : Kind) (p : Pieces) (members : List (String × Json)) :
    readPieces kind p (toMembers members) = (toMembers members).fold kind.take p := by
  induction members generalizing p with
  | nil => rw [toMembers, readPieces, Members.fold]
  | cons m ms ih =>
    rw [readPieces_cons, toMembers, Members.fold]
    simp only [ih]
    rfl

/-- No two members of a kind are of the same sort. -/
theorem Kind.sort_ne {kind : Kind} {key key' : String} {part part' : Part}
    (h : kind.parts.lookup key = some part) (h' : kind.parts.lookup key' = some part')
    (hne : key ≠ key') : part.sort ≠ part'.sort := by
  intro hsort
  have hnodup : (kind.parts.map fun member => member.2.sort).Nodup := by
    cases kind <;> decide
  have heq := List.inj_on_of_nodup_map hnodup (Entries.mem_of_lookup h) (Entries.mem_of_lookup h')
    hsort
  exact hne (congrArg Prod.fst heq)

theorem Kind.advance_take_of_none {kind : Kind} {m : String × Json}
    (h : kind.parts.lookup m.1 = none) (p : Option Pieces) : advance kind.take p m = p := by
  apply advance_of_unchanged
  intro p
  rw [Kind.take, h]

theorem Kind.advance_take_of_some {kind : Kind} {m : String × Json} {part : Part}
    (h : kind.parts.lookup m.1 = some part) (p : Pieces) :
    advance kind.take (some p) m =
      if p.has part then none else (part.read (toNode m.2)).toOption.map p.set := by
  rw [advance, Option.bind_some, Kind.take, h]
  by_cases hp : p.has part
  · simp only [hp, if_true]
    rfl
  · simp only [hp, Bool.false_eq_true, if_false, toOption_map]

theorem Kind.commutes_take (kind : Kind) : Commutes kind.take := by
  intro p a b hne
  cases ha : kind.parts.lookup a.1 with
  | none => rw [Kind.advance_take_of_none ha, Kind.advance_take_of_none ha]
  | some part =>
    cases hb : kind.parts.lookup b.1 with
    | none => rw [Kind.advance_take_of_none hb, Kind.advance_take_of_none hb]
    | some part' =>
      -- Neither member sets what the other one looks at.
      have hsort := Kind.sort_ne ha hb hne
      have hleft : ∀ x, part.read (toNode a.2) = .ok x → (p.set x).has part' = p.has part' :=
        fun x hx => p.has_set (Part.sort_of_read hx ▸ hsort)
      have hright : ∀ y, part'.read (toNode b.2) = .ok y → (p.set y).has part = p.has part :=
        fun y hy => p.has_set (Part.sort_of_read hy ▸ hsort.symm)
      have hboth : ∀ x y, part.read (toNode a.2) = .ok x → part'.read (toNode b.2) = .ok y →
          (p.set x).set y = (p.set y).set x := by
        intro x y hx hy
        apply p.set_comm
        rw [Part.sort_of_read hx, Part.sort_of_read hy]
        exact hsort
      by_cases hp : p.has part <;> by_cases hp' : p.has part' <;>
        cases hx : part.read (toNode a.2) <;> cases hy : part'.read (toNode b.2) <;>
          simp_all [Kind.advance_take_of_some ha, Kind.advance_take_of_some hb, Except.toOption]

/-! ## Expressions -/

theorem member_of_part {members : List (String × Json)} {kind : Kind} {key : String} {part : Part}
    (hkind : kindAmong members = some kind) (hpart : kind.parts.lookup key = some part) :
    Form.expr.member members key = part.form := by
  have hnodup : ((forms (some kind)).map Prod.fst).Nodup := by
    have hkeys : (forms (some kind)).map Prod.fst =
        "offset" :: "kind" :: kind.parts.map Prod.fst := by simp [forms]
    rw [hkeys]
    exact kind.nodup_parts
  have hmem : (key, part.form) ∈ forms (some kind) := by
    refine List.mem_cons_of_mem _ (List.mem_cons_of_mem _ ?_)
    exact List.mem_map.mpr ⟨(key, part), Entries.mem_of_lookup hpart, rfl⟩
  rw [Form.member, Form.fields?, hkind, Option.getD_some, Entries.lookup_of_mem hnodup hmem,
    Option.getD_some]

/-- Both values are read alike as an expression or as a list of them, where the form says so. -/
structure ReadAlike (form : Form) (j j' : Json) : Prop where
  one : form = .expr → Agree read j j'
  many : form = .list .expr → Agree (list read) j j'

theorem Part.toOption_read {part : Part} {j j' : Json} (hdistinct : j.Distinct)
    (hvaries : part.form.Varies j j') (halike : ReadAlike part.form j j') :
    (part.read (toNode j)).toOption = (part.read (toNode j')).toOption := by
  cases part <;> simp only [Part.read, toOption_map]
  case literal => rw [Literal.scalar_read.steady _ hdistinct hvaries .held]
  case var => rw [Variable.steady_read hdistinct hvaries .held]
  case callee => rw [Signature.steady_read hdistinct hvaries .held]
  case label => rw [scalar_text.steady _ hdistinct hvaries .held]
  case maybeLabel => rw [(scalar_text.steady _).nullable hdistinct hvaries .held]
  case operand => rw [halike.one rfl .held]
  case maybeOperand => rw [agree_nullable hvaries (halike.one rfl) .held]
  case operands => rw [halike.many rfl .held]

section

variable {members kept extra members' : List (String × Json)}

theorem toOption_read_object (src : Source) (members : List (String × Json)) :
    (read src (.object (toMembers members))).toOption =
      (fields.ofMembers src (takeIn src) (toMembers members)).toOption.bind fun row =>
        (Kind.find (toMembers members)).toOption.bind fun kind =>
          ((toMembers members).fold kind.take {}).toOption.bind fun p =>
            (build row.1 p kind).toOption := by
  have hread : read src (.object (toMembers members)) =
      (fields.ofMembers src (takeIn src) (toMembers members)).bind fun row =>
        (Kind.find (toMembers members)).bind fun kind =>
          (readPieces kind {} (toMembers members)).bind fun p => build row.1 p kind := by
    rw [read]
    rfl
  simp only [hread, toOption_bind, readPieces_eq]

theorem toOption_find_eq (hmembers : Rearranged members kept extra members')
    (hdistinct : ∀ m ∈ members, m.2.Distinct)
    (hkept : ∀ p ∈ members.zip kept, (Form.expr.member members p.1.1).Varies p.1.2 p.2.2)
    (hextra : ∀ m ∈ extra, m.1 ≠ "kind") :
    (Kind.find (toMembers members)).toOption = (Kind.find (toMembers members')).toOption := by
  have hfold := hmembers.toOption_fold_eq Kind.commutes_spot (s := none)
    (fun p hp found => by
      have hread := Kind.scalar_read.steady _ (hdistinct p.1 (mem_of_mem_zip hp)) (hkept p hp) .held
      unfold Kind.spot
      split
      · cases found with
        | some _ => rfl
        | none => rw [toOption_map, toOption_map, hread]
      · rfl)
    (fun m hm found => Kind.spot_of_ne (hextra m hm) found _)
  rw [Kind.find_eq, Kind.find_eq, toOption_bind, toOption_bind, hfold]

theorem toOption_take_eq {kind : Kind} (hmembers : Rearranged members kept extra members')
    (hkind : kindAmong members = some kind) (hdistinct : ∀ m ∈ members, m.2.Distinct)
    (hkept : ∀ p ∈ members.zip kept, (Form.expr.member members p.1.1).Varies p.1.2 p.2.2)
    (halike : ∀ p ∈ members.zip kept, ReadAlike (Form.expr.member members p.1.1) p.1.2 p.2.2)
    (hextra : ∀ m ∈ extra, kind.parts.lookup m.1 = none) (p : Pieces) :
    ((toMembers members).fold kind.take p).toOption =
      ((toMembers members').fold kind.take p).toOption := by
  refine hmembers.toOption_fold_eq kind.commutes_take (fun q hq p => ?_) (fun m hm p => ?_) p
  · have hq' := hdistinct q.1 (mem_of_mem_zip hq)
    have hvaries := hkept q hq
    have hread := halike q hq
    unfold Kind.take
    cases hpart : kind.parts.lookup q.1.1 with
    | none => rfl
    | some part =>
      rw [member_of_part hkind hpart] at hvaries hread
      simp only
      split
      · rfl
      · rw [toOption_map, toOption_map, Part.toOption_read hq' hvaries hread]
  · rw [Kind.take, hextra m hm]

theorem agree_read_object (hmembers : Rearranged members kept extra members')
    (hdistinct : ∀ m ∈ members, m.2.Distinct)
    (hkept : ∀ p ∈ members.zip kept, (Form.expr.member members p.1.1).Varies p.1.2 p.2.2)
    (halike : ∀ p ∈ members.zip kept, ReadAlike (Form.expr.member members p.1.1) p.1.2 p.2.2)
    (hextra : ∀ m ∈ extra, m.1 ∉ (forms (kindAmong members)).map Prod.fst) :
    Agree read (.object members) (.object members') := by
  intro src
  have hknown : fields.Known (forms (kindAmong members)) :=
    ⟨⟨.any, rfl, scalar_word.steady _⟩, trivial⟩
  have hoffset := hknown.toOption_ofMembers src (takeIn_toNode src) hmembers hdistinct hkept hextra
  have hfind := toOption_find_eq hmembers hdistinct hkept fun m hm hkey =>
    hextra m hm (by simp [forms, hkey])
  rw [toNode, toNode, toOption_read_object, toOption_read_object, ← hoffset, ← hfind,
    Kind.toOption_find hmembers.distinct]
  cases hkind : kindAmong members with
  | none => rfl
  | some kind =>
    rw [hkind] at hextra
    have htake := toOption_take_eq hmembers hkind hdistinct hkept halike fun m hm => by
      rw [List.lookup_eq_none_iff]
      intro part hpart
      rw [bne_iff_ne]
      intro hkey
      refine hextra m hm (hkey ▸ ?_)
      exact List.mem_cons_of_mem _ (List.mem_cons_of_mem _ (by simpa using ⟨_, hpart⟩))
    simp only [Option.bind_some, htake {}]

end

theorem readAlike_of_varies {form : Form} {j j' : Json} (h : form.Varies j j')
    (hdistinct : j.Distinct) : ReadAlike form j j' := by
  -- A member of an expression is an expression or a list of them, so both go along.
  induction h with
  | same => exact ⟨fun _ _ => rfl, fun _ _ => rfl⟩
  | array hlength hitems ih =>
    rw [distinct_array] at hdistinct
    refine ⟨fun _ src => by simp [toNode, read, Node.unwanted, refuse, Except.toOption], ?_⟩
    rintro rfl
    refine agree_list hlength fun i a b ha hb => ?_
    exact (ih i a b ha hb (hdistinct a (List.mem_of_getElem? ha))).one rfl
  | object hkeys hkept hextra hperm ih =>
    rw [distinct_object] at hdistinct
    refine ⟨?_, fun _ _ => rfl⟩
    rintro rfl
    refine agree_read_object ⟨hkeys, hdistinct.1, hperm⟩ hdistinct.2 hkept ?_ ?_
    · intro p hp
      exact ih p hp (hdistinct.2 p.1 (mem_of_mem_zip hp))
    · exact Form.not_mem_of_fields? rfl hextra

theorem steady_read : Steady read .expr :=
  fun _ _ hdistinct hvaries => (readAlike_of_varies hvaries hdistinct).one rfl

end Expr

/-! ## Declarations, files and modules -/

theorem Decl.known_fields : Decl.fields.Known Decl.forms :=
  ⟨⟨_, rfl, scalar_text.steady _⟩, ⟨_, rfl, Parameter.steady_read.list⟩,
    ⟨_, rfl, Expr.steady_read.nullable⟩, ⟨_, rfl, scalar_word.steady _⟩, trivial⟩

theorem Decl.known_signature : Signature.fields.Known Decl.forms :=
  ⟨⟨_, rfl, scalar_text.steady _⟩, ⟨_, rfl, Owner.steady_read.nullable⟩,
    ⟨_, rfl, Mark.steady_read.list⟩, trivial⟩

theorem Decl.steady_read : Steady Decl.read (.record Decl.forms) := by
  intro j j' hdistinct hvaries src
  cases hvaries with
  | same => rfl
  | array => rfl
  | @object _ members kept extra members' hkeys hkept hextra hperm =>
    rw [distinct_object] at hdistinct
    have hmembers : Rearranged members kept extra members' := ⟨hkeys, hdistinct.1, hperm⟩
    have hunknown : ∀ m ∈ extra, m.1 ∉ Decl.forms.map Prod.fst :=
      Form.not_mem_of_fields? rfl hextra
    have hown := Decl.known_fields.toOption_ofMembers src (takeIn_toNode src) hmembers hdistinct.2
      hkept hunknown
    have hsignature := Decl.known_signature.toOption_ofMembers .held (passOver_toNode .held)
      hmembers hdistinct.2 hkept hunknown
    have hread : ∀ ms : List (String × Json), Decl.read src (.object (toMembers ms)) =
        (Decl.fields.ofMembers src (takeIn src) (toMembers ms)).bind fun row =>
          ((Signature.fields.ofMembers .held (passOver .held) (toMembers ms)).map fun row =>
            Signature.mk row.1 row.2.1 row.2.2.1).bind fun signature =>
              .ok ⟨row.1, signature, row.2.1, row.2.2.1, row.2.2.2.1⟩ := fun _ => rfl
    rw [toNode, toNode, hread, hread]
    simp only [toOption_bind, toOption_map, hown, hsignature]

theorem SourceFile.steady_read : Steady SourceFile.read (.record SourceFile.forms) := by
  have hfields : SourceFile.fields.Formed SourceFile.forms :=
    ⟨_, _, rfl, scalar_path.steady _, _, _, rfl, (scalar_word.steady _).list, _, _, rfl,
      Decl.steady_read.list, rfl⟩
  exact steady_record hfields (by decide)

namespace Module

theorem steady_read : Steady Module.read (.record forms) := by
  have hfields : Module.fields.Formed forms :=
    ⟨_, _, rfl, scalar_text.steady _, _, _, rfl, SourceFile.steady_read.list, rfl⟩
  exact steady_record hfields (by decide)

/-- A text without repeated keys may have the members of its objects in any order, and members that
are no fields in the objects that have fields: it is accepted all the same, as the same module. -/
theorem only_the_fields_of_a_text_count (path text text' : String) (j j' : Json)
    (htext : IsTextOf text j) (htext' : IsTextOf text' j') (hdistinct : j.Distinct)
    (hvaries : (Form.record forms).Varies j j') (m : Module) :
    parse path text = .ok m ↔ parse path text' = .ok m := by
  have hread := steady_read hdistinct hvaries .text
  rw [parse_eq_ok_iff, parse_eq_ok_iff, htext.parse_eq, htext'.parse_eq, ← toOption_eq_some_iff,
    ← toOption_eq_some_iff, hread]

/-- A module of one function, which returns a constant. -/
def small : Module :=
  ⟨"m", [⟨"a.kt", [0], [⟨"f", ⟨"g", none, []⟩, [], some (.ret 5 (.const 7 (.int 1))), 3⟩]⟩]⟩

/-- The description of that module, with the members in their usual order. -/
def tidy : Json :=
  .object [("name", .string "m"),
    ("files", .array [.object [("path", .string "a.kt"), ("line_starts", .array [.int 0]),
      ("functions", .array [.object [("id", .string "f"), ("name", .string "g"),
        ("parameters", .array []),
        ("body", .object [("offset", .int 5), ("kind", .string "return"),
          ("value", .object [("offset", .int 7), ("kind", .string "const"), ("value", .int 1)])]),
        ("offset", .int 3)]])]])]

theorem toJson_small : small.toJson = tidy := rfl

/-- The same with all members turned around and some put in, among them fields of other records and
other kinds. -/
def untidy : Json :=
  .object [("id", .int 2), ("id", .array [.int 1]),
    ("files", .array [.object [
      ("functions", .array [.object [("path", .object [("path", .null)]), ("offset", .int 3),
        ("body", .object [
          ("value", .object [("operand", .null), ("value", .int 1), ("kind", .string "const"),
            ("offset", .int 7)]),
          ("kind", .string "return"), ("offset", .int 5)]),
        ("parameters", .array []), ("name", .string "g"), ("id", .string "f")]]),
      ("line_starts", .array [.int 0]), ("path", .string "a.kt")]]),
    ("name", .string "m")]

theorem varies_array_singleton {form : Form} {a b : Json} (h : (form.item 0).Varies a b) :
    form.Varies (.array [a]) (.array [b]) := by
  refine .array rfl fun i x y hx hy => ?_
  cases i with
  | zero =>
    cases hx
    cases hy
    exact h
  | succ i => simp at hx

/-- From the outside in, each object is turned around. -/
theorem varies_untidy : (Form.record forms).Varies tidy untidy := by
  refine @Form.Varies.object _ _ [_, _] [_, _] _ (by rfl) ?_ ?_ (List.reverse_perm [_, _, _, _])
  · simp only [List.zip_cons_cons, List.zip_nil_left, List.forall_mem_cons]
    refine ⟨.same _ _, varies_array_singleton ?_, nofun⟩
    refine @Form.Varies.object _ _ [_, _, _] [] _ (by rfl) ?_ nofun (List.reverse_perm [_, _, _])
    simp only [List.zip_cons_cons, List.zip_nil_left, List.forall_mem_cons]
    refine ⟨.same _ _, .same _ _, varies_array_singleton ?_, nofun⟩
    refine @Form.Varies.object _ _ [_, _, _, _, _] [_] _ (by rfl) ?_ ?_
      (List.reverse_perm [_, _, _, _, _, _])
    · simp only [List.zip_cons_cons, List.zip_nil_left, List.forall_mem_cons]
      refine ⟨.same _ _, .same _ _, .same _ _, ?_, .same _ _, nofun⟩
      refine @Form.Varies.object _ _ [_, _, _] [] _ (by rfl) ?_ nofun (List.reverse_perm [_, _, _])
      simp only [List.zip_cons_cons, List.zip_nil_left, List.forall_mem_cons]
      refine ⟨.same _ _, .same _ _, ?_, nofun⟩
      refine @Form.Varies.object _ _ [_, _, _] [_] _ (by rfl) ?_ ?_
        (List.reverse_perm [_, _, _, _])
      · simp only [List.zip_cons_cons, List.zip_nil_left, List.forall_mem_cons]
        exact ⟨.same _ _, .same _ _, .same _ _, nofun⟩
      · rw [List.forall_mem_singleton]
        exact ⟨_, rfl, by decide⟩
    · rw [List.forall_mem_singleton]
      exact ⟨_, rfl, by decide⟩
  · rw [List.forall_mem_cons, List.forall_mem_singleton]
    exact ⟨⟨_, rfl, by decide⟩, ⟨_, rfl, by decide⟩⟩

theorem a_small_module_is_read_from_an_untidy_text :
    parse "m.json" tidy.compact = .ok small ∧ parse "m.json" untidy.compact = .ok small := by
  have htells : Tells Module.read tidy small := by
    rw [← toJson_small]
    apply tells
    simp [small, FloatFree, Decl.FloatFree, Expr.nodes, Expr.isFloat]
  have hdistinct : tidy.Distinct := by simp [tidy]
  have huntidy : untidy.Plain := by simp [untidy]
  have hread : parse "m.json" tidy.compact = .ok small := by
    rw [parse_eq_ok_iff, htells.parse_compact]
  refine ⟨hread, ?_⟩
  rw [← only_the_fields_of_a_text_count "m.json" _ _ tidy untidy (isTextOf_compact htells.plain)
    (isTextOf_compact huntidy) hdistinct varies_untidy]
  exact hread

end Module

end Purity
