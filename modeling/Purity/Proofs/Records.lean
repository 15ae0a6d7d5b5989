-- The laws of reading records. A record is read from an object field by field, so it does not
-- matter in which order the members stand, and a field with a default may be left out.
import Purity.Entries
import Purity.Json.Variant
import Purity.Proofs.Layout

namespace Purity.Json

/-! ## Values that tell something -/

/-- The value is plain, and wherever it comes from it is read as `a`. -/
structure Tells {α : Type} (read : Reader α) (j : Json) (a : α) : Prop where
  plain : j.Plain
  reads : ∀ src, read src (toNode j) = .ok a

variable {α : Type}

theorem Tells.parse_compact {read : Reader α} {j : Json} {a : α} (h : Tells read j a) :
    parse read j.compact = .ok a := by
  rw [Json.parse_compact read h.plain, h.reads]

theorem Tells.parse_pretty {read : Reader α} {j : Json} {a : α} (h : Tells read j a) :
    parse read (j.pretty ++ "\n") = .ok a := by
  rw [Json.parse_pretty read h.plain, h.reads]

theorem tells_text (s : String) : Tells text (.string s) s := ⟨.string s, fun _ => rfl⟩

theorem tells_path (s : String) : Tells path (.string s) s := ⟨.string s, fun _ => rfl⟩

theorem tells_truth (b : Bool) : Tells truth (.bool b) b := ⟨.bool b, fun _ => rfl⟩

theorem plain_nat {n : Nat} (h : n < UInt64.size) : (nat n).Plain := by
  apply Plain.int
  unfold UInt64.size at h
  omega

theorem tells_size {n : Nat} (h : n < UInt64.size) : Tells size (nat n) n := by
  refine ⟨plain_nat h, fun src => ?_⟩
  have hn : ¬ (n : Int) < 0 := by omega
  simp [toNode, nat, size, hn]

theorem tells_word (w : UInt64) : Tells word (nat w.toNat) w := by
  refine ⟨plain_nat w.toNat_lt, fun src => ?_⟩
  rw [word, (tells_size w.toNat_lt).reads]
  simp [Except.map]

theorem tells_choice {variants : List (String × α)} {name : String} {a : α}
    (h : variants.lookup name = some a) : Tells (choice variants) (.string name) a := by
  refine ⟨.string name, fun src => ?_⟩
  rw [toNode, choice, byName, h]

theorem tells_nullable {read : Reader α} {j : Json} {a : α} (h : Tells read j a)
    (hnull : j ≠ .null) : Tells (nullable read) j (some a) := by
  refine ⟨h.plain, fun src => ?_⟩
  have hread := h.reads src
  cases j with
  | null => exact absurd rfl hnull
  | _ =>
    rw [toNode] at hread
    rw [toNode, nullable, hread]
    · rfl
    · simp

theorem tells_nullable_text (s : String) : Tells (nullable text) (.string s) (some s) :=
  tells_nullable (tells_text s) (by simp)

theorem tells_list {read : Reader α} {write : α → Json} {as : List α}
    (h : ∀ a ∈ as, Tells read (write a) a) : Tells (list read) (.array (as.map write)) as := by
  refine ⟨.array ?_, fun src => ?_⟩
  · intro j hj
    obtain ⟨a, ha, rfl⟩ := List.mem_map.mp hj
    exact (h a ha).plain
  · rw [toNode, list]
    induction as with
    | nil => rfl
    | cons a as ih =>
      rw [List.map_cons, toItems, Items.readAll, (h a List.mem_cons_self).reads,
        ih fun a' ha' => h a' (List.mem_cons_of_mem a ha')]
      rfl

theorem fold_unchanged {σ : Type} {step : σ → String → Node → Reading σ} {s : σ}
    {members : List (String × Json)} (h : ∀ m ∈ members, step s m.1 (toNode m.2) = .ok s) :
    (toMembers members).fold step s = .ok s := by
  induction members with
  | nil => rfl
  | cons m ms ih =>
    obtain ⟨key, j⟩ := m
    rw [toMembers, Members.fold, h (key, j) List.mem_cons_self]
    exact ih fun m hm => h m (List.mem_cons_of_mem _ hm)

/-! ## Fields -/

namespace Fields

variable {αs : List Type}

theorem put_cons (field : Field α) (rest : Fields αs) (src : Source) (key : String) (value : Node)
    (slot : Option α) (slots : Slots αs) :
    (cons field rest).put src key value (slot, slots) =
      if key = field.name then
        match slot with
        | some _ => refuse (.repeated field.name)
        | none => (field.read src value).map fun a => some (some a, slots)
      else (rest.put src key value slots).map (·.map fun more => (slot, more)) := rfl

theorem complete_cons (field : Field α) (rest : Fields αs) (slot : Option α) (slots : Slots αs) :
    (cons field rest).complete (slot, slots) =
      match slot.or field.default? with
      | some a => (rest.complete slots).map fun row => (a, row)
      | none => refuse (.missing field.name) := by
  change (match slot.or field.default? with
    | some a => (rest.complete slots).bind fun row => .ok (a, row)
    | none => refuse (.missing field.name)) = _
  cases slot.or field.default? with
  | none => rfl
  | some a => cases rest.complete slots <;> rfl

/-- The names of the fields. -/
def names {αs : List Type} : Fields αs → List String
  | .nil => []
  | .cons field rest => field.name :: rest.names

/-- Each field has its value in the row: from the member of its name, or else by default. -/
def Fits (members : List (String × Json)) {αs : List Type} : Fields αs → Row αs → Prop
  | .nil, _ => True
  | .cons field rest, (a, row) =>
    (match members.lookup field.name with
      | some j => Tells field.read j a
      | none => field.default? = some a) ∧ rest.Fits members row

section

variable {field : Field α} {rest : Fields αs} {members : List (String × Json)} {a : α}
  {row : Row αs}

theorem fits_given {j : Json} (hlookup : members.lookup field.name = some j)
    (h : Tells field.read j a) (hrest : rest.Fits members row) :
    (cons field rest).Fits members (a, row) := by
  rw [Fits, hlookup]
  exact ⟨h, hrest⟩

theorem fits_left_out (hlookup : members.lookup field.name = none)
    (h : field.default? = some a) (hrest : rest.Fits members row) :
    (cons field rest).Fits members (a, row) := by
  rw [Fits, hlookup]
  exact ⟨h, hrest⟩

end

variable {fields : Fields αs} {members : List (String × Json)} {row : Row αs}

theorem Fits.plain_of_mem (h : fields.Fits members row) {key : String} {j : Json}
    (hmem : key ∈ fields.names) (hlookup : members.lookup key = some j) : j.Plain := by
  induction fields with
  | nil => simp [names] at hmem
  | cons field rest ih =>
    obtain ⟨a, row⟩ := row
    rw [Fits] at h
    rw [names, List.mem_cons] at hmem
    rcases hmem with rfl | hmem
    · rw [hlookup] at h
      exact h.1.plain
    · exact ih h.2 hmem

/-- The slots of a row once the members with the given keys have been met. -/
def met (keys : List String) {αs : List Type} : Fields αs → Row αs → Slots αs
  | .nil, _ => ()
  | .cons field rest, (a, row) => (if field.name ∈ keys then some a else none, rest.met keys row)

theorem met_nil (fields : Fields αs) (row : Row αs) : fields.met [] row = fields.empty := by
  induction fields with
  | nil => rfl
  | cons field rest ih =>
    obtain ⟨a, row⟩ := row
    rw [met, empty, ih, if_neg List.not_mem_nil]

theorem met_of_not_mem (fields : Fields αs) (row : Row αs) (keys : List String) {key : String}
    (h : key ∉ fields.names) : fields.met (keys ++ [key]) row = fields.met keys row := by
  induction fields with
  | nil => rfl
  | cons field rest ih =>
    obtain ⟨a, row⟩ := row
    rw [names, List.mem_cons, not_or] at h
    have hfield : field.name ∈ keys ++ [key] ↔ field.name ∈ keys := by simp [Ne.symm h.1]
    rw [met, met, ih row h.2]
    simp only [hfield]
    rfl

/-- A key that is no field is passed on. -/
theorem put_of_not_mem (fields : Fields αs) (src : Source) {key : String} (value : Node)
    (h : key ∉ fields.names) (slots : Slots αs) : fields.put src key value slots = .ok none := by
  induction fields with
  | nil => rfl
  | cons field rest ih =>
    obtain ⟨slot, slots⟩ := slots
    rw [names, List.mem_cons, not_or] at h
    rw [put_cons, if_neg h.1, ih h.2]
    rfl

/-- A key that has not been met fills the slot of its field. -/
theorem put_of_mem {keys : List String} {key : String} {j : Json} (src : Source)
    (hnames : fields.names.Nodup) (h : fields.Fits members row)
    (hlookup : members.lookup key = some j) (hnew : key ∉ keys) (hmem : key ∈ fields.names) :
    fields.put src key (toNode j) (fields.met keys row) =
      .ok (some (fields.met (keys ++ [key]) row)) := by
  induction fields with
  | nil => simp [names] at hmem
  | cons field rest ih =>
    obtain ⟨a, row⟩ := row
    rw [names, List.nodup_cons] at hnames
    rw [Fits] at h
    by_cases hkey : key = field.name
    · subst hkey
      have htold := h.1
      rw [hlookup] at htold
      have hnow : field.name ∈ keys ++ [field.name] := by simp
      rw [met, met, put_cons, if_pos rfl, if_neg hnew, if_pos hnow, htold.reads,
        rest.met_of_not_mem row keys hnames.1]
      rfl
    · have hrest : key ∈ rest.names := by
        rw [names, List.mem_cons] at hmem
        exact hmem.resolve_left hkey
      have hfield : field.name ∈ keys ++ [key] ↔ field.name ∈ keys := by simp [Ne.symm hkey]
      rw [met, met, put_cons, if_neg hkey, ih hnames.2 h.2 hrest]
      simp only [hfield]
      rfl

theorem complete_met (h : fields.Fits members row) :
    fields.complete (fields.met (members.map Prod.fst) row) = .ok row := by
  induction fields with
  | nil => rfl
  | cons field rest ih =>
    obtain ⟨a, row⟩ := row
    rw [Fits] at h
    have hslot : (if field.name ∈ members.map Prod.fst then some a else none).or field.default? =
        some a := by
      cases hlookup : members.lookup field.name with
      | some j =>
        have hmem : field.name ∈ members.map Prod.fst := by
          rw [List.lookup_eq_some_iff] at hlookup
          obtain ⟨front, back, rfl, _⟩ := hlookup
          simp
        rw [if_pos hmem]
        rfl
      | none =>
        have hmem : field.name ∉ members.map Prod.fst := by
          intro hmem
          obtain ⟨m, hm, hname⟩ := List.mem_map.mp hmem
          have hne := List.lookup_eq_none_iff.mp hlookup m hm
          simp [hname] at hne
        have hdefault := h.1
        rw [hlookup] at hdefault
        rw [if_neg hmem]
        exact hdefault
    rw [met, complete_cons, hslot, ih h.2]
    rfl

/-- Takes a member of an object. -/
def take (fields : Fields αs) (src : Source) (aside : Node → Option Fault) (slots : Slots αs)
    (key : String) (value : Node) : Reading (Slots αs) :=
  (fields.put src key value slots).bind fun
    | some slots => .ok slots
    | none => (orFault (aside value)).map fun _ => slots

theorem ofMembers_eq (fields : Fields αs) (src : Source) (aside : Node → Option Fault)
    (members : Members) :
    fields.ofMembers src aside members =
      (members.fold (fields.take src aside) fields.empty).bind fields.complete := rfl

/-- A member that is a field fills its slot, and any other is put aside. -/
theorem take_met (src : Source) {aside : Node → Option Fault} (hnames : fields.names.Nodup)
    (h : fields.Fits members row) {keys : List String} {key : String} {j : Json}
    (hlookup : members.lookup key = some j) (hnew : key ∉ keys)
    (haside : key ∉ fields.names → aside (toNode j) = none) :
    fields.take src aside (fields.met keys row) key (toNode j) =
      .ok (fields.met (keys ++ [key]) row) := by
  by_cases hmem : key ∈ fields.names
  · rw [take, put_of_mem src hnames h hlookup hnew hmem]
    rfl
  · rw [take, fields.put_of_not_mem src (toNode j) hmem, fields.met_of_not_mem row keys hmem]
    simp only [Except.bind, haside hmem]
    rfl

/-- The members that have been met stand in front of those that are still to come. -/
theorem fold_take (src : Source) {aside : Node → Option Fault} (hnames : fields.names.Nodup)
    (hkeys : (members.map Prod.fst).Nodup)
    (haside : ∀ m ∈ members, m.1 ∉ fields.names → aside (toNode m.2) = none)
    (h : fields.Fits members row) {front back : List (String × Json)}
    (hsplit : members = front ++ back) :
    (toMembers back).fold (fields.take src aside) (fields.met (front.map Prod.fst) row) =
      .ok (fields.met (members.map Prod.fst) row) := by
  induction back generalizing front with
  | nil =>
    rw [hsplit, List.append_nil]
    rfl
  | cons m back ih =>
    obtain ⟨key, j⟩ := m
    have hmem : (key, j) ∈ members := by simp [hsplit]
    have hnew : key ∉ front.map Prod.fst := by
      rw [hsplit, List.map_append, List.nodup_append] at hkeys
      intro hkey
      exact hkeys.2.2 key hkey key (by simp) rfl
    have hnext : members = (front ++ [(key, j)]) ++ back := by simp [hsplit]
    have hrest := ih hnext
    rw [List.map_append, List.map_singleton] at hrest
    rw [toMembers, Members.fold,
      take_met src hnames h (Entries.lookup_of_mem hkeys hmem) hnew (haside (key, j) hmem)]
    exact hrest

/-- The fields are found among the members of an object, whatever their order and whatever else is
there. -/
theorem ofMembers_of_fits (src : Source) {aside : Node → Option Fault} (hnames : fields.names.Nodup)
    (hkeys : (members.map Prod.fst).Nodup)
    (haside : ∀ m ∈ members, m.1 ∉ fields.names → aside (toNode m.2) = none)
    (h : fields.Fits members row) :
    fields.ofMembers src aside (toMembers members) = .ok row := by
  have hfold := fold_take src hnames hkeys haside h (List.nil_append members).symm
  rw [List.map_nil, met_nil] at hfold
  rw [ofMembers_eq, hfold]
  exact complete_met h

end Fields

/-! ## Records -/

theorem takeIn_toNode (src : Source) (j : Json) : takeIn src (toNode j) = none := by
  cases src with
  | text => exact takeFault_toNode j
  | held => rfl
  | stored => rfl

/-- A record is read from an object that has its fields in order, those with a default perhaps left
out. -/
theorem tells_record {αs : List Type} {name : String} (fields : Fields αs) {build : Row αs → α}
    {members : List (String × Json)} (row : Row αs) {a : α} (hbuild : build row = a)
    (hnames : fields.names.Nodup) (hkeys : (members.map Prod.fst).Sublist fields.names)
    (h : fields.Fits members row) : Tells (record name fields build) (.object members) a := by
  have hnodup : (members.map Prod.fst).Nodup := hkeys.nodup hnames
  have hknown : ∀ m ∈ members, m.1 ∈ fields.names :=
    fun m hm => hkeys.subset (List.mem_map.mpr ⟨m, hm, rfl⟩)
  refine ⟨.object ?_, fun src => ?_⟩
  · intro m hm
    exact h.plain_of_mem (hknown m hm) (Entries.lookup_of_mem hnodup hm)
  · rw [toNode, record, Fields.ofMembers_of_fits src hnames hnodup
      (fun m hm hnot => absurd (hknown m hm) hnot) h, ← hbuild]
    rfl

end Purity.Json
