-- Values that differ only where it should not matter: in the order of members, and in members that
-- are no fields of what they stand in. What takes members one by one, those under different keys
-- in any order, comes to the same on two such values, or to nothing on both.
import Mathlib.Data.List.Nodup
import Purity.Format.Module
import Purity.Proofs.Delimiting

namespace Purity

open Json

/-! ## The fields of descriptions -/

/-- What the objects inside a value stand for. -/
inductive Form
  /-- Nothing that has fields. -/
  | any
  | list (item : Form)
  /-- A record, which may also be an array of its fields in this order. -/
  | record (fields : List (String × Form))
  | expr

def Variable.forms : List (String × Form) :=
  [("name", .any), ("owner", .any), ("reassignable", .any), ("parameter", .any)]

def Owner.forms : List (String × Form) := [("name", .any), ("kind", .any)]

def Mark.forms : List (String × Form) := [("name", .any), ("arguments", .any)]

def Signature.forms : List (String × Form) :=
  [("name", .any), ("owner", .record Owner.forms), ("annotations", .list (.record Mark.forms))]

def Parameter.forms : List (String × Form) := [("name", .any), ("type_name", .any)]

/-- The fields of a declaration, those of its signature beside its own. -/
def Decl.forms : List (String × Form) :=
  [("id", .any), ("parameters", .list (.record Parameter.forms)), ("body", .expr),
    ("offset", .any)] ++ Signature.forms

def SourceFile.forms : List (String × Form) :=
  [("path", .any), ("line_starts", .list .any), ("functions", .list (.record Decl.forms))]

def Module.forms : List (String × Form) :=
  [("name", .any), ("files", .list (.record SourceFile.forms))]

namespace Expr

/-- The form of a member of an expression. -/
def Part.form : Part → Form
  | .literal => .any
  | .var => .record Variable.forms
  | .callee => .record Signature.forms
  | .label => .any
  | .maybeLabel => .any
  | .operand => .expr
  | .maybeOperand => .expr
  | .operands => .list .expr

/-- The kind that the members of an expression name. -/
def kindAmong (members : List (String × Json)) : Option Kind :=
  (members.lookup "kind").bind fun j => (Kind.read (toNode j)).toOption

/-- The fields of an expression: its place, its kind, and what belongs to the kind. -/
def forms (kind : Option Kind) : List (String × Form) :=
  ("offset", .any) :: ("kind", .any) ::
    (kind.elim [] Kind.parts).map fun part => (part.1, part.2.form)

end Expr

namespace Form

/-- The fields of an object with these members, if it stands for something that has fields. -/
def fields? : Form → List (String × Json) → Option (List (String × Form))
  | .record fields, _ => some fields
  | .expr, members => some (Expr.forms (Expr.kindAmong members))
  | .any, _ => none
  | .list _, _ => none

/-- The form of the member under a key. -/
def member (form : Form) (members : List (String × Json)) (key : String) : Form :=
  (((form.fields? members).getD []).lookup key).getD .any

/-- The form of an item of an array. -/
def item : Form → Nat → Form
  | .list form, _ => form
  | .record fields, i => (fields[i]?.map Prod.snd).getD .any
  | .any, _ => .any
  | .expr, _ => .any

/-- The second value comes from the first: members of objects change places, and objects that have
fields get further members, which are no fields of theirs. -/
inductive Varies : Form → Json → Json → Prop
  | same (form : Form) (j : Json) : Varies form j j
  | array {form : Form} {items items' : List Json} (hlength : items.length = items'.length)
    (hitems : ∀ (i : Nat) (a b : Json), items[i]? = some a → items'[i]? = some b →
      Varies (form.item i) a b) :
    Varies form (.array items) (.array items')
  | object {form : Form} {members kept extra members' : List (String × Json)}
    (hkeys : kept.map Prod.fst = members.map Prod.fst)
    (hkept : ∀ p ∈ members.zip kept, Varies (form.member members p.1.1) p.1.2 p.2.2)
    (hextra : ∀ m ∈ extra, ∃ fields, form.fields? members = some fields ∧
      m.1 ∉ fields.map Prod.fst)
    (hperm : members'.Perm (kept ++ extra)) :
    Varies form (.object members) (.object members')

theorem not_mem_of_fields? {form : Form} {members extra : List (String × Json)}
    {fields : List (String × Form)} (hfields : form.fields? members = some fields)
    (hextra : ∀ m ∈ extra, ∃ fields, form.fields? members = some fields ∧
      m.1 ∉ fields.map Prod.fst) :
    ∀ m ∈ extra, m.1 ∉ fields.map Prod.fst := by
  intro m hm
  obtain ⟨fields', hfields', hnot⟩ := hextra m hm
  rw [hfields, Option.some.injEq] at hfields'
  exact hfields' ▸ hnot

end Form

namespace Json

/-- No object inside the value has a key twice. -/
inductive Distinct : Json → Prop
  | null : Distinct .null
  | bool (b : Bool) : Distinct (.bool b)
  | int (i : Int) : Distinct (.int i)
  | float (x : Double) : Distinct (.float x)
  | string (s : String) : Distinct (.string s)
  | array {items : List Json} (h : ∀ j ∈ items, Distinct j) : Distinct (.array items)
  | object {members : List (String × Json)} (hkeys : (members.map Prod.fst).Nodup)
    (h : ∀ m ∈ members, Distinct m.2) : Distinct (.object members)

attribute [simp] Distinct.null Distinct.bool Distinct.int Distinct.float Distinct.string

@[simp] theorem distinct_array {items : List Json} :
    Distinct (.array items) ↔ ∀ j ∈ items, Distinct j := by
  refine ⟨?_, .array⟩
  rintro ⟨⟩
  assumption

@[simp] theorem distinct_object {members : List (String × Json)} :
    Distinct (.object members) ↔
      (members.map Prod.fst).Nodup ∧ ∀ m ∈ members, Distinct m.2 := by
  refine ⟨?_, fun h => .object h.1 h.2⟩
  rintro ⟨⟩
  exact ⟨‹_›, ‹_›⟩

/-! ## What is read, if anything -/

variable {α β σ : Type}

theorem toOption_bind {ε : Type} (x : Except ε α) (f : α → Except ε β) :
    (x.bind f).toOption = x.toOption.bind fun a => (f a).toOption := by
  cases x <;> rfl

theorem toOption_map {ε : Type} (x : Except ε α) (f : α → β) :
    (x.map f).toOption = x.toOption.map f := by
  cases x <;> rfl

theorem map_bind {γ : Type} (x : Reading α) (f : α → β) (next : β → Reading γ) :
    (x.map f).bind next = x.bind fun a => next (f a) := by
  cases x <;> rfl

theorem toOption_eq_some_iff {ε : Type} {x : Except ε α} {a : α} :
    x.toOption = some a ↔ x = .ok a := by
  cases x <;> simp [Except.toOption]

/-! ## Members one by one -/

/-- A step over one more member, if all went well so far. -/
def advance (step : σ → String → Node → Reading σ) (s : Option σ) (m : String × Json) : Option σ :=
  s.bind fun s => (step s m.1 (toNode m.2)).toOption

@[simp] theorem advance_none (step : σ → String → Node → Reading σ) (m : String × Json) :
    advance step none m = none := rfl

theorem advance_of_unchanged {step : σ → String → Node → Reading σ} {m : String × Json}
    (h : ∀ s, step s m.1 (toNode m.2) = .ok s) (s : Option σ) : advance step s m = s := by
  cases s with
  | none => rfl
  | some s =>
    rw [advance, Option.bind_some, h s]
    rfl

/-- Members under different keys may be taken in either order. -/
def Commutes (step : σ → String → Node → Reading σ) : Prop :=
  ∀ (s : σ) (a b : String × Json), a.1 ≠ b.1 →
    advance step (advance step (some s) a) b = advance step (advance step (some s) b) a

theorem foldl_advance_none (step : σ → String → Node → Reading σ)
    (members : List (String × Json)) : members.foldl (advance step) none = none := by
  induction members with
  | nil => rfl
  | cons m ms ih => exact ih

theorem toOption_fold (step : σ → String → Node → Reading σ) (members : List (String × Json))
    (s : σ) :
    ((toMembers members).fold step s).toOption = members.foldl (advance step) (some s) := by
  induction members generalizing s with
  | nil => rfl
  | cons m ms ih =>
    obtain ⟨key, j⟩ := m
    have hfold : (toMembers ((key, j) :: ms)).fold step s =
        (step s key (toNode j)).bind ((toMembers ms).fold step) := rfl
    rw [hfold, toOption_bind, List.foldl_cons, advance, Option.bind_some]
    cases step s key (toNode j) with
    | error e => exact (foldl_advance_none step ms).symm
    | ok s' => exact ih s'

/-- The members under the keys of an object in another order, with further members among them. -/
structure Rearranged (members kept extra members' : List (String × Json)) : Prop where
  keys : kept.map Prod.fst = members.map Prod.fst
  distinct : (members.map Prod.fst).Nodup
  perm : members'.Perm (kept ++ extra)

theorem mem_of_mem_zip {members kept : List (String × Json)} {p : (String × Json) × String × Json}
    (hp : p ∈ members.zip kept) : p.1 ∈ members :=
  (List.of_mem_zip (a := p.1) (b := p.2) hp).1

section

variable {step : σ → String → Node → Reading σ} {members kept extra members' : List (String × Json)}

theorem foldl_advance_congr (hkeys : kept.map Prod.fst = members.map Prod.fst)
    (hkept : ∀ p ∈ members.zip kept, ∀ s,
      (step s p.1.1 (toNode p.1.2)).toOption = (step s p.1.1 (toNode p.2.2)).toOption)
    (s : Option σ) : members.foldl (advance step) s = kept.foldl (advance step) s := by
  induction members generalizing kept s with
  | nil =>
    rw [List.map_nil, List.map_eq_nil_iff] at hkeys
    rw [hkeys]
  | cons m ms ih =>
    cases kept with
    | nil => simp at hkeys
    | cons m' ms' =>
      rw [List.map_cons, List.map_cons, List.cons.injEq] at hkeys
      have hhead : advance step s m = advance step s m' := by
        unfold advance
        rw [hkeys.1]
        congr 1
        funext s
        exact hkept (m, m') List.mem_cons_self s
      rw [List.foldl_cons, List.foldl_cons, hhead]
      exact ih hkeys.2 (fun p hp => hkept p (List.mem_cons_of_mem _ hp)) _

theorem foldl_advance_skip (hextra : ∀ m ∈ extra, ∀ s, advance step s m = s) (s : Option σ) :
    extra.foldl (advance step) s = s := by
  induction extra generalizing s with
  | nil => rfl
  | cons m ms ih =>
    rw [List.foldl_cons, hextra m List.mem_cons_self]
    exact ih (fun m' hm' => hextra m' (List.mem_cons_of_mem m hm')) s

/-- Neither the order of members nor members that change nothing matter to a step that does not
care about the order. -/
theorem Rearranged.toOption_fold_eq (h : Rearranged members kept extra members')
    (hcomm : Commutes step)
    (hkept : ∀ p ∈ members.zip kept, ∀ s,
      (step s p.1.1 (toNode p.1.2)).toOption = (step s p.1.1 (toNode p.2.2)).toOption)
    (hextra : ∀ m ∈ extra, ∀ s, step s m.1 (toNode m.2) = .ok s) (s : σ) :
    ((toMembers members).fold step s).toOption = ((toMembers members').fold step s).toOption := by
  have hskip : ∀ m ∈ extra, ∀ s, advance step s m = s :=
    fun m hm => advance_of_unchanged (hextra m hm)
  -- Of two kept members under one key both are the same one.
  have hswap : ∀ a ∈ kept ++ extra, ∀ b ∈ kept ++ extra, ∀ s,
      advance step (advance step s a) b = advance step (advance step s b) a := by
    intro a ha b hb s
    rcases List.mem_append.mp ha with ha | ha
    · rcases List.mem_append.mp hb with hb | hb
      · by_cases hab : a.1 = b.1
        · have hnodup : (kept.map Prod.fst).Nodup := h.keys ▸ h.distinct
          rw [List.inj_on_of_nodup_map hnodup ha hb hab]
        · cases s with
          | none => rfl
          | some s => exact hcomm s a b hab
      · rw [hskip b hb, hskip b hb]
    · rw [hskip a ha, hskip a ha]
  calc ((toMembers members).fold step s).toOption
      = members.foldl (advance step) (some s) := toOption_fold step members s
    _ = kept.foldl (advance step) (some s) := foldl_advance_congr h.keys hkept _
    _ = (kept ++ extra).foldl (advance step) (some s) := by
      rw [List.foldl_append, foldl_advance_skip hskip]
    _ = members'.foldl (advance step) (some s) := (h.perm.symm.foldl_eq' hswap _)
    _ = ((toMembers members').fold step s).toOption := (toOption_fold step members' s).symm

end

/-! ## Readers that do not mind -/

/-- Both values are read as the same, or none of them can be read. -/
def Agree (read : Reader α) (j j' : Json) : Prop :=
  ∀ src, (read src (toNode j)).toOption = (read src (toNode j')).toOption

/-- The reader does not tell values apart that vary as the form allows. -/
def Steady (read : Reader α) (form : Form) : Prop :=
  ∀ ⦃j j' : Json⦄, j.Distinct → form.Varies j j' → Agree read j j'

/-- A reader that takes neither arrays nor objects. -/
structure Scalar (read : Reader α) : Prop where
  array : ∀ src items, (read src (.array items)).toOption = none
  object : ∀ src members, (read src (.object members)).toOption = none

theorem Scalar.steady {read : Reader α} (h : Scalar read) (form : Form) : Steady read form := by
  intro j j' _ hvaries src
  cases hvaries with
  | same => rfl
  | array => rw [toNode, toNode, h.array, h.array]
  | object => rw [toNode, toNode, h.object, h.object]

theorem scalar_text : Scalar text := ⟨fun _ _ => rfl, fun _ _ => rfl⟩

theorem scalar_path : Scalar path := ⟨fun _ _ => rfl, fun _ _ => rfl⟩

theorem scalar_truth : Scalar truth := ⟨fun _ _ => rfl, fun _ _ => rfl⟩

theorem scalar_word : Scalar word := ⟨fun _ _ => rfl, fun _ _ => rfl⟩

theorem agree_nullable {read : Reader α} {form : Form} {j j' : Json} (hvaries : form.Varies j j')
    (h : Agree read j j') : Agree (nullable read) j j' := by
  intro src
  have hread := h src
  cases hvaries with
  | same => rfl
  | array =>
    rw [toNode, toNode] at hread ⊢
    simp only [nullable, toOption_map, hread]
  | object =>
    rw [toNode, toNode] at hread ⊢
    simp only [nullable, toOption_map, hread]

theorem Steady.nullable {read : Reader α} {form : Form} (h : Steady read form) :
    Steady (nullable read) form :=
  fun _ _ hdistinct hvaries => agree_nullable hvaries (h hdistinct hvaries)

theorem agree_list {read : Reader α} {items items' : List Json}
    (hlength : items.length = items'.length)
    (h : ∀ (i : Nat) (a b : Json), items[i]? = some a → items'[i]? = some b → Agree read a b) :
    Agree (list read) (.array items) (.array items') := by
  intro src
  rw [toNode, toNode, list, list]
  induction items generalizing items' with
  | nil => rw [List.eq_nil_of_length_eq_zero hlength.symm]
  | cons a as ih =>
    cases items' with
    | nil => simp at hlength
    | cons b bs =>
      have htail := ih (Nat.succ_inj.mp hlength) fun i => h (i + 1)
      have hread : ∀ (c : Json) (cs : List Json), ((toItems (c :: cs)).readAll (read src)).toOption =
          (read src (toNode c)).toOption.bind fun x =>
            ((toItems cs).readAll (read src)).toOption.map (x :: ·) := by
        intro c cs
        have hall : (toItems (c :: cs)).readAll (read src) = (read src (toNode c)).bind fun x =>
            ((toItems cs).readAll (read src)).bind fun xs => .ok (x :: xs) := rfl
        rw [hall, toOption_bind]
        congr 1
        funext x
        cases (toItems cs).readAll (read src) <;> rfl
      rw [hread, hread, h 0 a b rfl rfl src, htail]

theorem Steady.list {read : Reader α} {form : Form} (h : Steady read form) :
    Steady (list read) (.list form) := by
  intro j j' hdistinct hvaries
  cases hvaries with
  | same => exact fun _ => rfl
  | array hlength hitems =>
    rw [distinct_array] at hdistinct
    refine agree_list hlength fun i a b ha hb => ?_
    exact h (hdistinct a (List.mem_of_getElem? ha)) (hitems i a b ha hb)
  | object => exact fun _ => rfl

/-! ## Fields -/

namespace Fields

variable {αs : List Type}

/-- The slots after a member, unless it cannot be taken. -/
def fill (src : Source) (key : String) (j : Json) :
    {αs : List Type} → Fields αs → Slots αs → Option (Slots αs)
  | _, .nil, slots => some slots
  | _, .cons field rest, slots =>
    if key = field.name then
      match slots.1, (field.read src (toNode j)).toOption with
      | none, some a => some (some a, slots.2)
      | _, _ => none
    else
      match rest.fill src key j slots.2 with
      | some more => some (slots.1, more)
      | none => none

theorem fill_cons (field : Field α) (rest : Fields αs) (src : Source) (key : String) (j : Json)
    (slot : Option α) (slots : Slots αs) :
    (cons field rest).fill src key j (slot, slots) =
      if key = field.name then
        match slot, (field.read src (toNode j)).toOption with
        | none, some a => some (some a, slots)
        | _, _ => none
      else
        match rest.fill src key j slots with
        | some more => some (slot, more)
        | none => none := rfl

theorem toOption_take (fields : Fields αs) (src : Source) {aside : Node → Option Fault} (j : Json)
    (haside : aside (toNode j) = none) (key : String) (slots : Slots αs) :
    (fields.take src aside slots key (toNode j)).toOption = fields.fill src key j slots := by
  induction fields with
  | nil =>
    unfold take
    simp only [put, Except.bind, haside]
    rfl
  | cons field rest ih =>
    obtain ⟨slot, slots⟩ := slots
    have htail := ih slots
    unfold take at htail ⊢
    rw [put_cons, fill_cons]
    by_cases hkey : key = field.name
    · rw [if_pos hkey, if_pos hkey]
      cases slot <;> cases field.read src (toNode j) <;> rfl
    · rw [if_neg hkey, if_neg hkey, ← htail]
      rcases rest.put src key (toNode j) slots with e | _ | more
      · rfl
      · simp only [Except.map, Except.bind, haside]
        rfl
      · rfl

/-- Members under different keys fill different slots. -/
theorem fill_comm (fields : Fields αs) (src : Source) {key key' : String} (hne : key ≠ key')
    (j j' : Json) (slots : Slots αs) :
    (fields.fill src key j slots).bind (fields.fill src key' j') =
      (fields.fill src key' j' slots).bind (fields.fill src key j) := by
  induction fields with
  | nil => rfl
  | cons field rest ih =>
    obtain ⟨slot, slots⟩ := slots
    have hone : ∀ {k k' : String} {i i' : Json}, k = field.name → k' ≠ field.name →
        ((cons field rest).fill src k i (slot, slots)).bind ((cons field rest).fill src k' i') =
          ((cons field rest).fill src k' i' (slot, slots)).bind
            ((cons field rest).fill src k i) := by
      intro k k' i i' hk hk'
      rw [fill_cons, fill_cons, if_pos hk, if_neg hk']
      cases slot <;> cases hread : (field.read src (toNode i)).toOption <;>
        cases hfill : rest.fill src k' i' slots <;>
          simp only [Option.bind, fill_cons, if_pos hk, if_neg hk', hread, hfill]
    have hnone : ∀ {k k' : String} {i i' : Json}, k ≠ field.name → k' ≠ field.name →
        ((cons field rest).fill src k i (slot, slots)).bind ((cons field rest).fill src k' i') =
          ((rest.fill src k i slots).bind (rest.fill src k' i')).bind fun more =>
            some (slot, more) := by
      intro k k' i i' hk hk'
      rw [fill_cons, if_neg hk]
      cases rest.fill src k i slots with
      | none => rfl
      | some more =>
        simp only [Option.bind, fill_cons, if_neg hk']
        cases rest.fill src k' i' more <;> rfl
    by_cases hkey : key = field.name
    · exact hone hkey fun h => hne (hkey.trans h.symm)
    · by_cases hkey' : key' = field.name
      · exact (hone hkey' hkey).symm
      · rw [hnone hkey hkey', hnone hkey' hkey, ih slots]

theorem fill_of_not_mem (fields : Fields αs) (src : Source) {key : String}
    (h : key ∉ fields.names) (j : Json) (slots : Slots αs) :
    fields.fill src key j slots = some slots := by
  induction fields with
  | nil => rfl
  | cons field rest ih =>
    obtain ⟨slot, slots⟩ := slots
    rw [names, List.mem_cons, not_or] at h
    rw [fill_cons, if_neg h.1, ih h.2]

/-- Each field is one of the form's, and its reader does not mind what may vary there. -/
def Known (forms : List (String × Form)) {αs : List Type} : Fields αs → Prop
  | .nil => True
  | .cons field rest =>
    (∃ form, forms.lookup field.name = some form ∧ Steady field.read form) ∧ rest.Known forms

/-- The fields are the form's, in the same order, and the readers do not mind what may vary. -/
def Formed {αs : List Type} : Fields αs → List (String × Form) → Prop
  | .nil, forms => forms = []
  | .cons field rest, forms => ∃ form more, forms = (field.name, form) :: more ∧
    Steady field.read form ∧ rest.Formed more

variable {fields : Fields αs} {forms : List (String × Form)}

theorem Known.cons_of_not_mem (h : fields.Known forms) {name : String} {form : Form}
    (hname : name ∉ fields.names) : fields.Known ((name, form) :: forms) := by
  induction fields with
  | nil => trivial
  | cons field rest ih =>
    rw [names, List.mem_cons, not_or] at hname
    obtain ⟨⟨form', hlookup, hsteady⟩, hrest⟩ := h
    refine ⟨⟨form', ?_, hsteady⟩, ih hrest hname.2⟩
    rw [List.lookup_cons, beq_eq_false_iff_ne.mpr (Ne.symm hname.1)]
    exact hlookup

theorem Formed.known (h : fields.Formed forms) (hnames : fields.names.Nodup) :
    fields.Known forms := by
  induction fields generalizing forms with
  | nil => trivial
  | cons field rest ih =>
    obtain ⟨form, more, rfl, hsteady, hrest⟩ := h
    rw [names, List.nodup_cons] at hnames
    exact ⟨⟨form, List.lookup_cons_self, hsteady⟩, (ih hrest hnames.2).cons_of_not_mem hnames.1⟩

theorem Known.mem_of_mem_names (h : fields.Known forms) {key : String} (hkey : key ∈ fields.names) :
    key ∈ forms.map Prod.fst := by
  induction fields with
  | nil => simp [names] at hkey
  | cons field rest ih =>
    obtain ⟨⟨form, hlookup, _⟩, hrest⟩ := h
    rw [names, List.mem_cons] at hkey
    rcases hkey with rfl | hkey
    · exact List.mem_map_of_mem (Entries.mem_of_lookup hlookup)
    · exact ih hrest hkey

theorem Known.fill_eq (h : fields.Known forms) (src : Source) {key : String} {j j' : Json}
    (hdistinct : j.Distinct) (hvaries : ((forms.lookup key).getD .any).Varies j j')
    (slots : Slots αs) : fields.fill src key j slots = fields.fill src key j' slots := by
  induction fields with
  | nil => rfl
  | cons field rest ih =>
    obtain ⟨slot, slots⟩ := slots
    obtain ⟨⟨form, hlookup, hsteady⟩, hrest⟩ := h
    rw [fill_cons, fill_cons, ih hrest]
    by_cases hkey : key = field.name
    · rw [hkey, hlookup] at hvaries
      rw [if_pos hkey, if_pos hkey, hsteady hdistinct hvaries src]
    · rw [if_neg hkey, if_neg hkey]

/-- The fields are found alike among the members of both objects. -/
theorem Known.toOption_ofMembers (h : fields.Known forms) (src : Source)
    {aside : Node → Option Fault} (haside : ∀ j, aside (toNode j) = none)
    {members kept extra members' : List (String × Json)}
    (hmembers : Rearranged members kept extra members') (hdistinct : ∀ m ∈ members, m.2.Distinct)
    (hkept : ∀ p ∈ members.zip kept, ((forms.lookup p.1.1).getD .any).Varies p.1.2 p.2.2)
    (hextra : ∀ m ∈ extra, m.1 ∉ forms.map Prod.fst) :
    (fields.ofMembers src aside (toMembers members)).toOption =
      (fields.ofMembers src aside (toMembers members')).toOption := by
  have hfill : ∀ (slots : Slots αs) (m : String × Json),
      (fields.take src aside slots m.1 (toNode m.2)).toOption = fields.fill src m.1 m.2 slots :=
    fun slots m => fields.toOption_take src m.2 (haside m.2) m.1 slots
  have hcomm : Commutes (fields.take src aside) := by
    intro slots a b hne
    simp only [advance, Option.bind_some, hfill]
    exact fields.fill_comm src hne a.2 b.2 slots
  have hfold := hmembers.toOption_fold_eq hcomm (s := fields.empty)
    (fun p hp slots => by
      rw [hfill slots p.1, hfill slots (p.1.1, p.2.2)]
      exact h.fill_eq src (hdistinct p.1 (mem_of_mem_zip hp)) (hkept p hp) slots)
    (fun m hm slots => by
      have hname : m.1 ∉ fields.names := fun hkey => hextra m hm (h.mem_of_mem_names hkey)
      rw [← toOption_eq_some_iff, hfill]
      exact fields.fill_of_not_mem src hname m.2 slots)
  rw [ofMembers_eq, ofMembers_eq, toOption_bind, toOption_bind, hfold]

/-- The values at the front of an array, unless one of them cannot be read. -/
def front (src : Source) : {αs : List Type} → Fields αs → List Json → Option (Row αs)
  | _, .nil, _ => some ()
  | _, .cons field rest, j :: items =>
    match (field.read src (toNode j)).toOption, rest.front src items with
    | some a, some row => some (a, row)
    | _, _ => none
  | _, .cons field rest, [] =>
    match field.default?, rest.front src [] with
    | some a, some row => some (a, row)
    | _, _ => none

/-- One more value in front of a row. -/
theorem toOption_bind_front (a : α) {x : Reading (Row αs × Items)} {row : Option (Row αs)}
    {left : Items} (h : x.toOption = row.map (·, left)) :
    (x.bind fun p => (.ok ((a, p.1), p.2) : Reading (Row (α :: αs) × Items))).toOption =
      row.map fun row => ((a, row), left) := by
  rw [toOption_bind, h]
  cases row <;> rfl

/-- Behind the values at the front of an array all other items are left. -/
theorem toOption_ofItems (fields : Fields αs) (src : Source) (wanted : Wanted) (seen : Nat)
    (items : List Json) :
    (fields.ofItems src wanted seen (toItems items)).toOption =
      (fields.front src items).map (·, toItems (items.drop fields.count)) := by
  induction fields generalizing seen items with
  | nil => rfl
  | cons field rest ih =>
    cases items with
    | nil =>
      have hrest := ih (seen + 1) []
      rw [List.drop_nil, toItems] at hrest
      rw [List.drop_nil, toItems, ofItems, front]
      cases field.default? with
      | none => rfl
      | some a =>
        refine (toOption_bind_front a hrest).trans ?_
        cases rest.front src [] <;> rfl
    | cons j items =>
      rw [toItems, ofItems, front]
      cases field.read src (toNode j) with
      | error e => rfl
      | ok a =>
        refine (toOption_bind_front a (ih (seen + 1) items)).trans ?_
        cases rest.front src items <;> rfl

/-- The fields are found alike at the front of both arrays. -/
theorem Formed.front_eq (h : fields.Formed forms) (src : Source) {items items' : List Json}
    (hlength : items.length = items'.length) (hdistinct : ∀ j ∈ items, j.Distinct)
    (hitems : ∀ (i : Nat) (a b : Json), items[i]? = some a → items'[i]? = some b →
      ((Form.record forms).item i).Varies a b) :
    fields.front src items = fields.front src items' := by
  induction fields generalizing forms items items' with
  | nil => rfl
  | cons field rest ih =>
    obtain ⟨form, more, rfl, hsteady, hrest⟩ := h
    cases items with
    | nil => rw [List.eq_nil_of_length_eq_zero hlength.symm]
    | cons a as =>
      cases items' with
      | nil => simp at hlength
      | cons b bs =>
        rw [List.forall_mem_cons] at hdistinct
        have hhead := hsteady hdistinct.1 (hitems 0 a b rfl rfl) src
        have htail := ih hrest (Nat.succ_inj.mp hlength) hdistinct.2 fun i => hitems (i + 1)
        rw [front, front, hhead, htail]

end Fields

/-! ## Records -/

theorem passOver_toNode (src : Source) (j : Json) : passOver src (toNode j) = none := by
  cases src with
  | text => exact Node.passFault_of_takeFault _ (takeFault_toNode j)
  | held => rfl
  | stored => rfl

section

variable {αs : List Type} {name : String} {fields : Fields αs} {build : Row αs → α}

/-- An array is read as a record if the fields are at its front and nothing is behind them. -/
theorem toOption_record_array (src : Source) (items : List Json) :
    (record name fields build src (.array (toItems items))).toOption =
      if items.length ≤ fields.count then (fields.front src items).map build else none := by
  have hrecord : record name fields build src (.array (toItems items)) =
      (fields.ofItems src (.fields name fields.count) 0 (toItems items)).bind fun p =>
        (p.2.ended src (toItems items).length fields.count).bind fun _ => .ok (build p.1) := rfl
  rw [hrecord, toOption_bind, Fields.toOption_ofItems]
  cases fields.front src items with
  | none => simp
  | some row =>
    by_cases hlength : items.length ≤ fields.count
    · rw [if_pos hlength, List.drop_eq_nil_of_le hlength]
      rfl
    · have hpos : 0 < (items.drop fields.count).length := by
        rw [List.length_drop]
        omega
      obtain ⟨j, left, hleft⟩ := List.exists_cons_of_length_pos hpos
      rw [if_neg hlength, hleft]
      cases src <;> rfl

theorem steady_record {forms : List (String × Form)} (h : fields.Formed forms)
    (hnames : fields.names.Nodup) : Steady (record name fields build) (.record forms) := by
  intro j j' hdistinct hvaries src
  cases hvaries with
  | same => rfl
  | array hlength hitems =>
    rw [distinct_array] at hdistinct
    rw [toNode, toNode, toOption_record_array, toOption_record_array,
      h.front_eq src hlength hdistinct hitems, hlength]
  | object hkeys hkept hextra hperm =>
    rw [distinct_object] at hdistinct
    rw [toNode, toNode, record, record, toOption_map, toOption_map,
      (h.known hnames).toOption_ofMembers src (passOver_toNode src) ⟨hkeys, hdistinct.1, hperm⟩
        hdistinct.2 hkept (Form.not_mem_of_fields? rfl hextra)]

end

end Json

end Purity
