-- A module is read back from its text. Every part of a module tells itself: what is written of it
-- is plain, and reading that gives the part again. Expressions do so by induction over their
-- children.
import Purity.Format.Module
import Purity.Proofs.Records
import Purity.Proofs.Tree

namespace Purity

open Json

/-! ## Signatures -/

theorem OwnerKind.tells (k : OwnerKind) : Tells OwnerKind.read (.string k.key) k := by
  apply tells_choice
  cases k <;> rfl

theorem Owner.tells (o : Owner) : Tells Owner.read o.toJson o := by
  apply tells_record Owner.fields (o.name, o.kind, ()) rfl (by decide) (.refl _)
  apply Fields.fits_given rfl (tells_text o.name)
  apply Fields.fits_given rfl o.kind.tells
  trivial

theorem MarkValue.tells (v : MarkValue) : Tells MarkValue.read v.toJson v := by
  cases v with
  | flag b => exact ⟨.bool b, fun src => by cases src <;> rfl⟩
  | text s => exact ⟨.string s, fun src => by cases src <;> rfl⟩

/-- A key behind all others goes to the end. -/
theorem Entries.insert_of_lt {α : Type} {key : String} {value : α} {entries : List (String × α)}
    (h : ∀ e ∈ entries, e.1 < key) : insert key value entries = entries ++ [(key, value)] := by
  induction entries with
  | nil => rfl
  | cons e entries ih =>
    have hlt : e.1 < key := h e List.mem_cons_self
    have hnot : ¬ key < e.1 := String.lt_asymm hlt
    have hne : ¬ key = e.1 := fun heq => String.lt_irrefl key (heq ▸ hlt)
    rw [insert, if_neg hnot, if_neg hne, ih fun e' he' => h e' (List.mem_cons_of_mem e he')]
    rfl

/-- The entries stand in order, so each goes to the end of those before it. -/
theorem Arguments.fold_entries (a : Arguments) (src : Source) {b : Arguments}
    {back : List (String × MarkValue)} (ha : a.entries = b.entries ++ back) :
    (toMembers (back.map fun e => (e.1, e.2.toJson))).fold (fun arguments key value =>
      (MarkValue.read src value).map (arguments.insert key)) b = .ok a := by
  induction back generalizing b with
  | nil =>
    have hab : b = a := by
      cases a
      cases b
      simp_all
    rw [hab]
    rfl
  | cons e back ih =>
    have hlt : ∀ x ∈ b.entries, x.1 < e.1 := by
      intro x hx
      have hordered := a.ordered
      rw [ha, List.pairwise_append] at hordered
      exact hordered.2.2 x hx e List.mem_cons_self
    have hinsert : (b.insert e.1 e.2).entries = b.entries ++ [e] := Entries.insert_of_lt hlt
    have hnext : a.entries = (b.insert e.1 e.2).entries ++ back := by simp [ha, hinsert]
    rw [List.map_cons, toMembers, Members.fold, (MarkValue.tells e.2).reads]
    exact ih hnext

theorem Arguments.tells (a : Arguments) : Tells Arguments.read a.toJson a := by
  refine ⟨.object ?_, fun src => a.fold_entries src (List.nil_append a.entries).symm⟩
  intro m hm
  obtain ⟨e, _, rfl⟩ := List.mem_map.mp hm
  exact (MarkValue.tells e.2).plain

theorem Mark.tells (m : Mark) : Tells Mark.read m.toJson m := by
  apply tells_record Mark.fields (m.name, m.arguments, ()) rfl (by decide) (.refl _)
  apply Fields.fits_given rfl (tells_text m.name)
  apply Fields.fits_given rfl m.arguments.tells
  trivial

/-- A signature is found among any members that have its own under their names. -/
theorem Signature.fits (s : Signature) {members : List (String × Json)}
    (hname : members.lookup "name" = some (.string s.name))
    (howner : members.lookup "owner" = s.owner.map Owner.toJson)
    (hmarks : members.lookup "annotations" =
      if s.marks.isEmpty then none else some (.array (s.marks.map Mark.toJson))) :
    Signature.fields.Fits members (s.name, s.owner, s.marks, ()) := by
  apply Fields.fits_given hname (tells_text s.name)
  have hlast : Fields.Fits members (.cons (.defaulted "annotations" (list Mark.read) []) .nil)
      (s.marks, ()) := by
    cases hm : s.marks with
    | nil =>
      rw [hm] at hmarks
      exact Fields.fits_left_out hmarks rfl trivial
    | cons m ms =>
      rw [hm] at hmarks
      exact Fields.fits_given hmarks (tells_list fun m _ => m.tells) trivial
  cases ho : s.owner with
  | none =>
    rw [ho] at howner
    exact Fields.fits_left_out howner rfl hlast
  | some o =>
    rw [ho] at howner
    exact Fields.fits_given howner (tells_nullable o.tells (by simp [Owner.toJson])) hlast

theorem Signature.keys_members (s : Signature) :
    (s.members.map Prod.fst).Sublist Signature.fields.names := by
  obtain ⟨name, owner, marks⟩ := s
  cases owner <;> cases marks <;>
    simp [Signature.members, Signature.fields, Fields.names, Field.required, Field.optional,
      Field.defaulted]

theorem Signature.tells (s : Signature) : Tells Signature.read s.toJson s := by
  apply tells_record Signature.fields (s.name, s.owner, s.marks, ()) rfl (by decide) s.keys_members
  apply s.fits
  · rfl
  · obtain ⟨name, owner, marks⟩ := s
    cases owner <;> cases marks <;> rfl
  · obtain ⟨name, owner, marks⟩ := s
    cases owner <;> cases marks <;> rfl

/-! ## Variables and constants -/

theorem Variable.tells (v : Variable) : Tells Variable.read v.toJson v := by
  apply tells_record Variable.fields (v.name, v.owner, v.reassignable, v.parameter, ()) rfl
    (by decide) (.refl _)
  apply Fields.fits_given rfl (tells_text v.name)
  apply Fields.fits_given rfl (tells_text v.owner)
  apply Fields.fits_given rfl (tells_truth v.reassignable)
  apply Fields.fits_given rfl (tells_truth v.parameter)
  trivial

theorem Literal.tells {l : Literal} (h : ∀ x, l ≠ .float x) : Tells Literal.read l.toJson l := by
  cases l with
  | null => exact ⟨.null, fun src => by cases src <;> rfl⟩
  | bool b => exact ⟨.bool b, fun src => by cases src <;> rfl⟩
  | int i =>
    have hlow := i.le_toInt
    have hhigh := i.toInt_lt
    have hlt : i.toInt < 0x8000000000000000 := by omega
    refine ⟨.int (by omega), fun src => ?_⟩
    cases src <;> simp [Literal.read, toNode, Literal.toJson, takeIn, Node.takeFault, orFault, bind,
      Except.bind, hlt]
  | float x => exact absurd rfl (h x)
  | string s => exact ⟨.string s, fun src => by cases src <;> rfl⟩

namespace Expr

/-! ## Members of expressions -/

/-- Whether the expression is a float constant. -/
def isFloat : Expr → Bool
  | .const _ (.float _) => true
  | _ => false

/-- The kind of an expression. -/
def kind : Expr → Kind
  | .const _ _ => .const
  | .get _ _ => .get
  | .set _ _ _ => .set
  | .call _ _ _ _ => .call
  | .ret _ _ => .ret
  | .cast _ _ _ => .cast
  | .block _ _ => .block
  | .declare _ _ _ => .declare
  | .unhandled _ _ _ => .unhandled

/-- The word for a kind. -/
def Kind.word : Kind → String
  | .const => "const"
  | .get => "get_value"
  | .set => "set_value"
  | .call => "call"
  | .ret => "return"
  | .cast => "type_operator"
  | .block => "block"
  | .declare => "declare"
  | .unhandled => "unhandled"

/-- The members that belong to the kind of an expression. -/
def ownMembers : Expr → List (String × Json)
  | .const _ v => [("value", v.toJson)]
  | .get _ v => [("variable", v.toJson)]
  | .set _ v e => [("variable", v.toJson), ("value", e.toJson)]
  | .call _ c r as =>
    ("callee", c.toJson) :: ((r.map fun e => ("receiver", e.toJson)).toList ++
      [("arguments", .array (as.map toJson))])
  | .ret _ e => [("value", e.toJson)]
  | .cast _ e t => ("operand", e.toJson) :: (t.map fun t => ("type_name", Json.string t)).toList
  | .block _ es => [("statements", .array (es.map toJson))]
  | .declare _ v e => ("variable", v.toJson) :: (e.map fun e => ("initializer", e.toJson)).toList
  | .unhandled _ n es => [("node", .string n), ("children", .array (es.map toJson))]

theorem toJsonList_eq (es : List Expr) : toJsonList es = es.map toJson := by
  induction es with
  | nil => rfl
  | cons e es ih => rw [toJsonList, ih, List.map_cons]

theorem memberOption_eq (name : String) (r : Option Expr) :
    memberOption name r = (r.map fun e => (name, e.toJson)).toList := by
  cases r <;> rfl

theorem toJson_eq (e : Expr) :
    e.toJson = .object
      (("offset", .nat e.offset.toNat) :: ("kind", .string e.kind.word) :: e.ownMembers) := by
  cases e <;> simp [toJson, toJsonList_eq, memberOption_eq, offset, kind, Kind.word, ownMembers]

/-- The members of a kind are told apart from each other and from the place and the kind. -/
theorem Kind.nodup_parts (kind : Kind) : ("offset" :: "kind" :: kind.parts.map Prod.fst).Nodup := by
  cases kind <;> decide

theorem Kind.find_members {kind : Kind} {j : Json} {members : List (String × Json)}
    (h : ∀ m ∈ members, m.1 ≠ "kind") :
    Kind.find (toMembers (("offset", j) :: ("kind", .string kind.word) :: members)) = .ok kind := by
  have hword : Kind.read (toNode (.string kind.word)) = .ok kind := by
    cases kind <;> rfl
  have hoffset : ¬ "offset" = "kind" := by decide
  simp only [find, toMembers, Members.fold, hoffset, if_true, if_false, hword, bind, Except.bind,
    Except.map]
  rw [fold_unchanged fun m hm => if_neg (h m hm)]

variable {e : Expr}

theorem keys_ownMembers (e : Expr) :
    (e.ownMembers.map Prod.fst).Sublist (e.kind.parts.map Prod.fst) := by
  cases e with
  | call o c r as => cases r <;> simp [ownMembers, kind, Kind.parts]
  | cast o e t => cases t <;> simp [ownMembers, kind, Kind.parts]
  | declare o v e => cases e <;> simp [ownMembers, kind, Kind.parts]
  | _ => exact .refl _

theorem readPieces_of_lookup {kind : Kind} {p : Pieces} {key : String} {j : Json}
    {members : List (String × Json)} (h : kind.parts.lookup key = none) :
    readPieces kind p (toMembers ((key, j) :: members)) =
      readPieces kind p (toMembers members) := by
  simp only [toMembers, readPieces, h]

/-! ## Reading members one after the other -/

/-- What a member of an expression adds to the members met before it. -/
inductive Adds (p : Pieces) : Part → Json → Pieces → Prop
  | literal {v : Literal} (hp : p.literal = none) (h : Tells Literal.read v.toJson v) :
    Adds p .literal v.toJson { p with literal := some v }
  | var (v : Variable) (hp : p.var = none) : Adds p .var v.toJson { p with var := some v }
  | callee (s : Signature) (hp : p.callee = none) :
    Adds p .callee s.toJson { p with callee := some s }
  | label (s : String) (hp : p.label = none) :
    Adds p .label (.string s) { p with label := some (some s) }
  | maybeLabel (s : String) (hp : p.label = none) :
    Adds p .maybeLabel (.string s) { p with label := some (some s) }
  | operand {e : Expr} (hp : p.operand = none) (h : Tells Expr.read e.toJson e) :
    Adds p .operand e.toJson { p with operand := some (some e) }
  | maybeOperand {e : Expr} (hp : p.operand = none) (h : Tells Expr.read e.toJson e) :
    Adds p .maybeOperand e.toJson { p with operand := some (some e) }
  | operands {es : List Expr} (hp : p.operands = none)
    (h : ∀ e ∈ es, Tells Expr.read e.toJson e) :
    Adds p .operands (.array (es.map toJson)) { p with operands := some es }

variable {kind : Kind} {part : Part} {p q : Pieces} {key : String} {j : Json}
  {members : List (String × Json)}

theorem Adds.plain (h : Adds p part j q) : j.Plain := by
  cases h with
  | literal _ h => exact h.plain
  | var v _ => exact v.tells.plain
  | callee s _ => exact s.tells.plain
  | label s _ => exact .string s
  | maybeLabel s _ => exact .string s
  | operand _ h => exact h.plain
  | maybeOperand _ h => exact h.plain
  | operands _ h => exact (tells_list h).plain

theorem readMaybe_of_tells (h : Tells Expr.read e.toJson e) :
    readMaybe (toNode e.toJson) = .ok (some e) := by
  have hread := h.reads .held
  rw [toJson_eq, toNode] at hread ⊢
  rw [readMaybe, hread]
  rfl

theorem readItems_of_tells {es : List Expr} (h : ∀ e ∈ es, Tells Expr.read e.toJson e) :
    readItems (toItems (es.map toJson)) = .ok es := by
  induction es with
  | nil => rw [List.map_nil, toItems, readItems]
  | cons e es ih =>
    rw [List.map_cons, toItems, readItems, (h e List.mem_cons_self).reads,
      ih fun e' he' => h e' (List.mem_cons_of_mem e he')]
    rfl

theorem readPieces_of_adds (h : Adds p part j q) (hpart : kind.parts.lookup key = some part) :
    readPieces kind p (toMembers ((key, j) :: members)) =
      readPieces kind q (toMembers members) := by
  rw [toMembers, readPieces, hpart]
  cases h with
  | literal hp h =>
    simp only [hp, once, h.reads]
    rfl
  | var v hp =>
    simp only [hp, once, v.tells.reads]
    rfl
  | callee s hp =>
    simp only [hp, once, s.tells.reads]
    rfl
  | label s hp =>
    simp only [hp, once, (tells_text s).reads]
    rfl
  | maybeLabel s hp =>
    simp only [hp, once, (tells_nullable_text s).reads]
    rfl
  | operand hp h =>
    simp only [hp, once, h.reads]
    rfl
  | maybeOperand hp h =>
    simp only [hp, once, readMaybe_of_tells h]
    rfl
  | operands hp h =>
    simp only [hp, once, toNode, readMany, readItems_of_tells h]
    rfl

/-- The members of an expression that lead from some members met to more. -/
inductive Leads (kind : Kind) : Pieces → List (String × Json) → Pieces → Prop
  | nil {p : Pieces} : Leads kind p [] p
  | cons {p q r : Pieces} {part : Part} {key : String} {j : Json} {members : List (String × Json)}
    (hpart : kind.parts.lookup key = some part) (h : Adds p part j q)
    (hrest : Leads kind q members r) : Leads kind p ((key, j) :: members) r

theorem Leads.plain (h : Leads kind p members q) : ∀ m ∈ members, m.2.Plain := by
  induction h with
  | nil => exact nofun
  | cons _ h _ ih =>
    rw [List.forall_mem_cons]
    exact ⟨h.plain, ih⟩

theorem Leads.readPieces (h : Leads kind p members q) :
    readPieces kind p (toMembers members) = .ok q := by
  induction h with
  | nil => rw [toMembers, Expr.readPieces]
  | cons hpart h _ ih => rw [readPieces_of_adds h hpart, ih]

/-! ## Expressions -/

/-- An expression is read back if its own members lead to it. -/
theorem tells_of_leads (h : Leads e.kind {} e.ownMembers p)
    (hbuild : build e.offset p e.kind = .ok e) : Tells Expr.read e.toJson e := by
  have hoffset := tells_word e.offset
  have hkeys : ("offset" :: "kind" :: e.ownMembers.map Prod.fst).Nodup :=
    (e.keys_ownMembers.cons_cons "kind" |>.cons_cons "offset").nodup e.kind.nodup_parts
  have hkind : ∀ m ∈ e.ownMembers, m.1 ≠ "kind" := by
    intro m hm heq
    rw [List.nodup_cons, List.nodup_cons] at hkeys
    exact hkeys.2.1 (List.mem_map.mpr ⟨m, hm, heq⟩)
  have hplain : ∀ m ∈ ("offset", Json.nat e.offset.toNat) :: ("kind", .string e.kind.word) ::
      e.ownMembers, m.2.Plain := by
    simp only [List.forall_mem_cons]
    exact ⟨hoffset.plain, .string _, h.plain⟩
  rw [toJson_eq]
  refine ⟨.object hplain, fun src => ?_⟩
  have hfields : Expr.fields.ofMembers src (takeIn src) (toMembers (("offset",
      Json.nat e.offset.toNat) :: ("kind", .string e.kind.word) :: e.ownMembers)) =
      .ok (e.offset, ()) := by
    refine Fields.ofMembers_of_fits src (by decide) hkeys ?_ (Fields.fits_given rfl hoffset trivial)
    intro m hm _
    exact takeIn_toNode src m.2
  rw [toNode, Expr.read, hfields]
  simp only [bind, Except.bind, Kind.find_members hkind]
  rw [readPieces_of_lookup (by cases e.kind <;> rfl),
    readPieces_of_lookup (by cases e.kind <;> rfl), h.readPieces]
  exact hbuild

theorem tells (e : Expr) (h : ∀ node ∈ e.nodes, node.isFloat = false) :
    Tells Expr.read e.toJson e := by
  induction e using childrenInduction with
  | step e ih =>
    have hself : e.isFloat = false := h e (by rw [nodes_eq]; exact List.mem_cons_self)
    have hchildren : ∀ c ∈ e.children, Tells Expr.read c.toJson c := by
      intro c hc
      refine ih c hc fun node hnode => h node ?_
      rw [nodes_eq, List.mem_cons, List.mem_flatMap]
      exact .inr ⟨c, hc, hnode⟩
    cases e with
    | const o v =>
      have hv : ∀ x, v ≠ .float x := by
        rintro x rfl
        cases hself
      exact tells_of_leads (.cons rfl (.literal rfl (Literal.tells hv)) .nil) rfl
    | get o v => exact tells_of_leads (.cons rfl (.var v rfl) .nil) rfl
    | set o v e =>
      have he := hchildren e (by simp [children])
      exact tells_of_leads (.cons rfl (.var v rfl) (.cons rfl (.operand rfl he) .nil)) rfl
    | call o c r as =>
      have has : ∀ a ∈ as, Tells Expr.read a.toJson a :=
        fun a ha => hchildren a (by simp [children, ha])
      cases r with
      | none =>
        exact tells_of_leads (.cons rfl (.callee c rfl) (.cons rfl (.operands rfl has) .nil)) rfl
      | some r =>
        have hr := hchildren r (by simp [children])
        exact tells_of_leads (.cons rfl (.callee c rfl) (.cons rfl (.maybeOperand rfl hr)
          (.cons rfl (.operands rfl has) .nil))) rfl
    | ret o e =>
      have he := hchildren e (by simp [children])
      exact tells_of_leads (.cons rfl (.operand rfl he) .nil) rfl
    | cast o e t =>
      have he := hchildren e (by simp [children])
      cases t with
      | none => exact tells_of_leads (.cons rfl (.operand rfl he) .nil) rfl
      | some t =>
        exact tells_of_leads (.cons rfl (.operand rfl he) (.cons rfl (.maybeLabel t rfl) .nil)) rfl
    | block o es => exact tells_of_leads (.cons rfl (.operands rfl hchildren) .nil) rfl
    | declare o v e =>
      cases e with
      | none => exact tells_of_leads (.cons rfl (.var v rfl) .nil) rfl
      | some e =>
        have he := hchildren e (by simp [children])
        exact tells_of_leads (.cons rfl (.var v rfl) (.cons rfl (.maybeOperand rfl he) .nil)) rfl
    | unhandled o n es =>
      exact tells_of_leads (.cons rfl (.label n rfl) (.cons rfl (.operands rfl hchildren) .nil)) rfl

end Expr

/-! ## Declarations -/

theorem Parameter.tells (p : Parameter) : Tells Parameter.read p.toJson p := by
  obtain ⟨name, type⟩ := p
  cases type with
  | none =>
    refine tells_record Parameter.fields (name, none, ()) rfl (by decide) ?_ ?_
    · exact List.sublist_append_left ["name"] ["type_name"]
    · apply Fields.fits_given rfl (tells_text name)
      exact Fields.fits_left_out rfl rfl trivial
  | some type =>
    apply tells_record Parameter.fields (name, some type, ()) rfl (by decide) (.refl _)
    apply Fields.fits_given rfl (tells_text name)
    exact Fields.fits_given rfl (tells_nullable_text type) trivial

namespace Decl

/-- No constant in the body is a float. -/
def FloatFree (d : Decl) : Prop := ∀ body ∈ d.body, ∀ node ∈ body.nodes, node.isFloat = false

/-- The members of a declaration as an object. -/
def members (d : Decl) : List (String × Json) :=
  ("id", .string d.id) :: (d.signature.members ++
    ("parameters", .array (d.parameters.map Parameter.toJson)) ::
      ((d.body.map fun e => ("body", e.toJson)).toList ++ [("offset", .nat d.offset.toNat)]))

theorem toJson_eq (d : Decl) : d.toJson = .object d.members := rfl

theorem keys_members (d : Decl) : (d.members.map Prod.fst).Sublist
    ("id" :: (Signature.fields.names ++ ["parameters", "body", "offset"])) := by
  rw [members, List.map_cons, List.map_append]
  apply List.Sublist.cons_cons
  apply d.signature.keys_members.append
  cases d.body <;> simp

theorem nodup_members (d : Decl) : (d.members.map Prod.fst).Nodup :=
  d.keys_members.nodup (by decide)

theorem fits_signature (d : Decl) : Signature.fields.Fits d.members
    (d.signature.name, d.signature.owner, d.signature.marks, ()) := by
  apply d.signature.fits
  · rfl
  · obtain ⟨id, ⟨name, owner, marks⟩, parameters, body, offset⟩ := d
    cases owner <;> cases marks <;> cases body <;> rfl
  · obtain ⟨id, ⟨name, owner, marks⟩, parameters, body, offset⟩ := d
    cases owner <;> cases marks <;> cases body <;> rfl

theorem lookup_own (d : Decl) :
    d.members.lookup "parameters" = some (.array (d.parameters.map Parameter.toJson)) ∧
      d.members.lookup "body" = d.body.map Expr.toJson ∧
      d.members.lookup "offset" = some (.nat d.offset.toNat) := by
  obtain ⟨id, ⟨name, owner, marks⟩, parameters, body, offset⟩ := d
  cases owner <;> cases marks <;> cases body <;> exact ⟨rfl, rfl, rfl⟩

theorem fits {d : Decl} (h : d.FloatFree) :
    Decl.fields.Fits d.members (d.id, d.parameters, d.body, d.offset, ()) := by
  obtain ⟨hparameters, hbody, hoffset⟩ := d.lookup_own
  apply Fields.fits_given rfl (tells_text d.id)
  apply Fields.fits_given hparameters (tells_list fun p _ => p.tells)
  have hlast : Fields.Fits d.members (.cons (.defaulted "offset" word 0) .nil) (d.offset, ()) :=
    Fields.fits_given hoffset (tells_word d.offset) trivial
  cases hd : d.body with
  | none =>
    rw [hd] at hbody
    exact Fields.fits_left_out hbody rfl hlast
  | some e =>
    rw [hd] at hbody
    have he := e.tells (h e hd)
    exact Fields.fits_given hbody (tells_nullable he (by rw [Expr.toJson_eq]; nofun)) hlast

/-- Every member belongs to the declaration itself or to its signature. -/
theorem plain_members {d : Decl} (h : d.FloatFree) : ∀ m ∈ d.members, m.2.Plain := by
  intro m hm
  have hlookup := Entries.lookup_of_mem d.nodup_members hm
  have hkey : m.1 ∈ Decl.fields.names ∨ m.1 ∈ Signature.fields.names := by
    have hmem := d.keys_members.subset (List.mem_map.mpr ⟨m, hm, rfl⟩)
    rw [List.mem_cons, List.mem_append] at hmem
    rcases hmem with hmem | hmem | hmem
    · exact .inl (hmem ▸ List.mem_cons_self)
    · exact .inr hmem
    · exact .inl (List.mem_cons_of_mem "id" hmem)
  rcases hkey with hkey | hkey
  · exact (fits h).plain_of_mem hkey hlookup
  · exact d.fits_signature.plain_of_mem hkey hlookup

theorem tells {d : Decl} (h : d.FloatFree) : Tells Decl.read d.toJson d := by
  rw [toJson_eq]
  refine ⟨.object (plain_members h), fun src => ?_⟩
  -- The members are gone through twice, each time past those of the other record.
  have hown : Decl.fields.ofMembers src (takeIn src) (toMembers d.members) =
      .ok (d.id, d.parameters, d.body, d.offset, ()) :=
    Fields.ofMembers_of_fits src (by decide) d.nodup_members
      (fun m _ _ => takeIn_toNode src m.2) (fits h)
  have hsignature : Signature.fields.ofMembers .held (passOver .held) (toMembers d.members) =
      .ok (d.signature.name, d.signature.owner, d.signature.marks, ()) :=
    Fields.ofMembers_of_fits .held (by decide) d.nodup_members (fun _ _ _ => rfl) d.fits_signature
  rw [toNode, Decl.read, hown]
  simp only [bind, Except.bind, Signature.read, record, hsignature]
  rfl

end Decl

/-! ## Modules -/

theorem SourceFile.tells {f : SourceFile} (h : ∀ d ∈ f.decls, d.FloatFree) :
    Tells SourceFile.read f.toJson f := by
  apply tells_record SourceFile.fields (f.path, f.lineStarts, f.decls, ()) rfl (by decide) (.refl _)
  apply Fields.fits_given rfl (tells_path f.path)
  apply Fields.fits_given rfl (tells_list fun n _ => tells_word n)
  apply Fields.fits_given rfl (tells_list fun d hd => Decl.tells (h d hd))
  trivial

namespace Module

/-- No constant in a module is a float. -/
def FloatFree (m : Module) : Prop := ∀ f ∈ m.files, ∀ d ∈ f.decls, d.FloatFree

theorem tells {m : Module} (h : m.FloatFree) : Tells Module.read m.toJson m := by
  apply tells_record Module.fields (m.name, m.files, ()) rfl (by decide) (.refl _)
  apply Fields.fits_given rfl (tells_text m.name)
  apply Fields.fits_given rfl (tells_list fun f hf => SourceFile.tells (h f hf))
  trivial

/-- The text of a module is read back as the module, unless a constant in it is a float. -/
theorem a_module_is_read_back_from_its_text (m : Module) (path : String) (h : m.FloatFree) :
    parse path m.toJson.compact = .ok m := by
  rw [parse, (tells h).parse_compact]
  rfl

/-- A call with everything that a signature can have, under names that need escapes. -/
def awkwardCall : Expr :=
  let marks := [⟨"Pure", .ofList [("why", .text "\n"), ("always", .flag true)]⟩, ⟨"", .empty⟩]
  .call 4 ⟨"print\"ln\"", some ⟨"kotlin\\text", .interface⟩, marks⟩
    (some (.get 5 ⟨"v", "m.f", true, false⟩))
    [.const 6 .null, .const 7 (.string "\u0000\t/\u007F𝄞"), .const 8 (.bool false)]

/-- A body with extreme numbers, and with expressions that lack what they may lack. -/
def awkwardBody : Expr :=
  .block 0 [.declare 1 ⟨"v", "m.f", true, false⟩ none,
    .declare 2 ⟨"w", "m.f", false, false⟩ (some awkwardCall),
    .set 3 ⟨"v", "m.f", true, false⟩ (.const 9 (.int (-9223372036854775808))),
    .call 10 ⟨"run", none, []⟩ none [],
    .unhandled 11 "" [.cast 12 (.block 13 []) (some "Any"), .cast 14 (.unhandled 15 "" []) none],
    .ret 18446744073709551615 (.const 16 (.string "null"))]

/-- A module with such a body, a function without one, and a file without functions. -/
def awkward : Module :=
  ⟨"m", [⟨"src/é.kt", [0, 18446744073709551615],
      [⟨"m.f", ⟨"f", none, []⟩, [⟨"p", none⟩, ⟨"q", some ""⟩], some awkwardBody, 7⟩,
        ⟨"", ⟨"", some ⟨"", .object⟩, []⟩, [], none, 0⟩]⟩,
    ⟨"", [], []⟩]⟩

theorem an_awkward_module_is_read_back :
    awkward.FloatFree ∧ parse "in.json" awkward.toJson.compact = .ok awkward := by
  have hfree : awkward.FloatFree := by
    simp [awkward, awkwardBody, awkwardCall, FloatFree, Decl.FloatFree, Expr.nodes, Expr.nodesList,
      Expr.nodesOption, Expr.isFloat]
  exact ⟨hfree, a_module_is_read_back_from_its_text awkward "in.json" hfree⟩

end Module

end Purity
