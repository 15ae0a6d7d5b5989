-- How much a text can hold. Every item of an array takes a character of its own, the comma or the
-- bracket behind it, so no list that is read from a text is longer than the text. In a module this
-- bounds the line tables.
import Mathlib.Data.List.TakeWhile
import Mathlib.Data.String.Basic
import Purity.Format.Module
import Purity.Proofs.Records

namespace Purity

namespace Json

/-! ## The items of a tree -/

mutual

/-- The number of items in the arrays of a value, however deep they are. -/
def Node.itemCount : Node → Nat
  | .array items => items.itemCount
  | .object members => members.itemCount
  | _ => 0

/-- The number of items from here on, those inside of each included. An item is counted only if the
text goes on behind it. -/
def Items.itemCount : Items → Nat
  | .cons head (.flaw _) => head.itemCount
  | .cons head tail => head.itemCount + tail.itemCount + 1
  | _ => 0

/-- The number of items in the values of the members. -/
def Members.itemCount : Members → Nat
  | .keyless found => found.itemCount
  | .cons _ value tail => value.itemCount + tail.itemCount
  | _ => 0

end

theorem Items.itemCount_cons_le (head : Node) (tail : Items) :
    (cons head tail).itemCount ≤ head.itemCount + tail.itemCount + 1 := by
  cases tail <;> simp [itemCount]

theorem Items.le_itemCount_cons (head : Node) (tail : Items) :
    head.itemCount ≤ (cons head tail).itemCount ∧ tail.itemCount ≤ (cons head tail).itemCount := by
  cases tail with
  | flaw f => simp [itemCount]
  | _ => simp only [itemCount]; omega

theorem Items.itemCount_cons {head : Node} {tail : Items} (h : ∀ f, tail ≠ .flaw f) :
    (cons head tail).itemCount = head.itemCount + tail.itemCount + 1 := by
  cases tail with
  | flaw f => exact absurd rfl (h f)
  | _ => simp [itemCount]

/-! ## Scanning takes a character for each item -/

theorem length_skipSpace_le (cs : List Char) : (skipSpace cs).length ≤ cs.length :=
  List.length_dropWhile_le isSpace cs

theorem length_lt_of_skipSpace {cs rest : List Char} {c : Char} (h : skipSpace cs = c :: rest) :
    rest.length < cs.length := by
  have := length_skipSpace_le cs
  rw [h, List.length_cons] at this
  omega

theorem length_scanPieces {acc acc' : List Piece} {cs rest : List Char}
    (h : scanPieces acc cs = (acc', .ok rest)) : rest.length ≤ cs.length := by
  fun_induction scanPieces acc cs
  case case2 acc behind =>
    cases h
    exact Nat.le_succ _
  -- A unit of four digits, another escape, and a plain character: the scan goes on behind them.
  case case4 ih | case7 ih | case10 ih =>
    have := ih h
    simp only [List.length_cons]
    omega
  all_goals simp at h

theorem length_scanString {cs rest : List Char} {s : Option String}
    (h : scanString cs = .ok (s, rest)) : rest.length ≤ cs.length := by
  unfold scanString at h
  split at h
  · rename_i acc rest' hp
    simp only [Except.ok.injEq, Prod.mk.injEq] at h
    rw [← h.2]
    exact length_scanPieces hp
  · simp at h

/-- What was scanned fits into the text together with the rest. -/
def Fits (cs : List Char) (scanned : Node × List Char) : Prop :=
  scanned.1.itemCount + scanned.2.length ≤ cs.length

theorem Fits.mono {cs cs' : List Char} {scanned : Node × List Char} (h : Fits cs scanned)
    (hle : cs.length ≤ cs'.length) : Fits cs' scanned :=
  Nat.le_trans h hle

theorem Fits.cons {cs : List Char} {scanned : Node × List Char} (h : Fits cs scanned) (c : Char) :
    Fits (c :: cs) scanned :=
  h.mono (Nat.le_succ cs.length)

theorem fits_flaw (cs : List Char) (f : Flaw) : Fits cs (.flaw f, []) := by
  simp [Fits, Node.itemCount]

theorem fits_numberOf (negative : Bool) (whole places : List Char) (e : Option Int)
    {cs rest : List Char} (h : rest.length ≤ cs.length) :
    Fits cs (numberOf negative whole places e, rest) := by
  have hcount : (numberOf negative whole places e).itemCount = 0 := by
    unfold numberOf
    grind [Node.itemCount]
  simpa [Fits, hcount] using h

theorem fits_scanExponent (negative : Bool) (whole places cs : List Char) :
    Fits cs (scanExponent negative whole places cs) := by
  unfold scanExponent
  extract_lets signed marked
  have hsigned : ∀ minus cs, Fits cs (signed minus cs) := by
    intro minus cs
    unfold signed
    split
    · exact fits_flaw cs _
    · exact fits_numberOf _ _ _ _ (List.length_dropWhile_le _ cs)
  have hmarked : ∀ cs, Fits cs (marked cs) := by
    intro cs
    unfold marked
    split
    · exact (hsigned false _).cons _
    · exact (hsigned true _).cons _
    · exact hsigned false _
  split
  · exact (hmarked _).cons _
  · exact (hmarked _).cons _
  · exact fits_numberOf _ _ _ _ (Nat.le_refl _)

theorem fits_scanPlaces (negative : Bool) (whole cs : List Char) :
    Fits cs (scanPlaces negative whole cs) := by
  unfold scanPlaces
  split
  · rename_i cs
    split
    · exact fits_flaw _ _
    · have hscan := fits_scanExponent negative whole (cs.takeWhile Char.isDigit)
        (cs.dropWhile Char.isDigit)
      exact (hscan.mono (List.length_dropWhile_le _ cs)).cons _
  · exact fits_scanExponent negative whole [] cs

theorem fits_scanNumber (negative : Bool) (cs : List Char) : Fits cs (scanNumber negative cs) := by
  unfold scanNumber
  split
  · exact fits_flaw _ _
  · exact fits_flaw _ _
  · exact (fits_scanPlaces negative _ _).mono (List.length_dropWhile_le _ cs)

theorem fits_scanWord {node : Node} (h : node.itemCount = 0) (word cs : List Char) :
    Fits cs (scanWord node word cs) := by
  induction word generalizing cs with
  | nil => simp [Fits, scanWord, h]
  | cons w ws ih =>
    cases cs with
    | nil => exact fits_flaw _ _
    | cons c cs =>
      unfold scanWord
      split
      · exact (ih cs).cons c
      · exact fits_flaw _ _

section

variable {fuel : Nat}
  (hvalue : ∀ cs, Fits cs (scanValue fuel cs))
  (hitems : ∀ cs, (scanItems fuel cs).1.itemCount + (scanItems fuel cs).2.length ≤ cs.length)
  (hmembers : ∀ cs, (scanMembers fuel cs).1.itemCount + (scanMembers fuel cs).2.length ≤ cs.length)

include hitems hmembers in
theorem fits_scanValue_succ (cs : List Char) : Fits cs (scanValue (fuel + 1) cs) := by
  unfold scanValue
  split
  · exact fits_flaw _ _
  · rename_i h
    exact (fits_scanWord rfl _ _).mono (Nat.le_of_lt (length_lt_of_skipSpace h))
  · rename_i h
    exact (fits_scanWord rfl _ _).mono (Nat.le_of_lt (length_lt_of_skipSpace h))
  · rename_i h
    exact (fits_scanWord rfl _ _).mono (Nat.le_of_lt (length_lt_of_skipSpace h))
  · rename_i h
    have hlt := length_lt_of_skipSpace h
    split
    · rename_i hs
      have := length_scanString hs
      simp only [Fits, Node.itemCount]
      omega
    · rename_i hs
      have := length_scanString hs
      simp only [Fits, Node.itemCount]
      omega
    · exact fits_flaw _ _
  · rename_i cs' h
    have hlt := length_lt_of_skipSpace h
    split
    · rename_i hs
      have := length_lt_of_skipSpace hs
      simp only [Fits, Node.itemCount, Items.itemCount]
      omega
    · have := hitems (skipSpace cs')
      have := length_skipSpace_le cs'
      simp only [Fits, Node.itemCount]
      omega
  · rename_i cs' h
    have hlt := length_lt_of_skipSpace h
    split
    · rename_i hs
      have := length_lt_of_skipSpace hs
      simp only [Fits, Node.itemCount, Members.itemCount]
      omega
    · have := hmembers (skipSpace cs')
      have := length_skipSpace_le cs'
      simp only [Fits, Node.itemCount]
      omega
  · rename_i h
    exact (fits_scanNumber true _).mono (Nat.le_of_lt (length_lt_of_skipSpace h))
  · rename_i h
    split
    · have hle := length_skipSpace_le cs
      rw [h] at hle
      exact (fits_scanNumber false _).mono hle
    · exact fits_flaw _ _

include hvalue hitems in
theorem fits_scanItems_succ (cs : List Char) :
    (scanItems (fuel + 1) cs).1.itemCount + (scanItems (fuel + 1) cs).2.length ≤ cs.length := by
  unfold scanItems
  split
  · simp [Items.itemCount]
  · have hhead := hvalue cs
    unfold Fits at hhead
    simp only
    split
    · rename_i h
      have := length_lt_of_skipSpace h
      simp only [Items.itemCount]
      omega
    · rename_i next h
      have := length_lt_of_skipSpace h
      split
      · simp only [Items.itemCount, List.length_nil]
        omega
      · simp only [Items.itemCount, List.length_nil]
        omega
      · have := hitems (skipSpace next)
        have := length_skipSpace_le next
        have := Items.itemCount_cons_le (scanValue fuel cs).1 (scanItems fuel (skipSpace next)).1
        simp only
        omega
    · simp only [Items.itemCount, List.length_nil]
      omega
    · simp only [Items.itemCount, List.length_nil]
      omega

include hvalue hmembers in
theorem fits_scanMembers_succ (cs : List Char) :
    (scanMembers (fuel + 1) cs).1.itemCount + (scanMembers (fuel + 1) cs).2.length ≤
      cs.length := by
  unfold scanMembers
  split
  · simp [Members.itemCount]
  · split
    · simp [Members.itemCount]
    · rename_i hkey
      have := length_scanString hkey
      split
      · simp [Members.itemCount, Node.itemCount]
      · rename_i behind h
        have := length_lt_of_skipSpace h
        have hmember := hvalue behind
        unfold Fits at hmember
        simp only [List.length_cons]
        split
        · rename_i h
          have := length_lt_of_skipSpace h
          simp only [Members.itemCount]
          omega
        · rename_i next h
          have := length_lt_of_skipSpace h
          split
          · simp only [Members.itemCount, List.length_nil]
            omega
          · have := hmembers (skipSpace next)
            have := length_skipSpace_le next
            simp only [Members.itemCount]
            omega
        · simp only [Members.itemCount, List.length_nil]
          omega
        · simp only [Members.itemCount, List.length_nil]
          omega
      · simp [Members.itemCount, Node.itemCount]
  · have hfound := hvalue cs
    unfold Fits at hfound
    simp only [Members.itemCount, List.length_nil]
    omega

end

/-- Whatever is scanned, its items and the rest are no more than the text. -/
theorem fits_scan (fuel : Nat) :
    (∀ cs, Fits cs (scanValue fuel cs)) ∧
      (∀ cs, (scanItems fuel cs).1.itemCount + (scanItems fuel cs).2.length ≤ cs.length) ∧
      (∀ cs, (scanMembers fuel cs).1.itemCount + (scanMembers fuel cs).2.length ≤ cs.length) := by
  induction fuel with
  | zero =>
    simp [scanValue, scanItems, scanMembers, Fits, Node.itemCount, Items.itemCount,
      Members.itemCount]
  | succ fuel ih =>
    obtain ⟨hvalue, hitems, hmembers⟩ := ih
    exact ⟨fits_scanValue_succ hitems hmembers, fits_scanItems_succ hvalue hitems,
      fits_scanMembers_succ hvalue hmembers⟩

theorem itemCount_scan_le (text : String) : (Document.scan text).root.itemCount ≤ text.length := by
  have hscan := (fits_scan (2 * text.toList.length + 2)).1 text.toList
  unfold Fits at hscan
  rw [← String.length_toList]
  exact Nat.le_trans (Nat.le_add_right _ _) hscan

/-! ## What is read comes from the tree -/

theorem bind_eq_ok {α β : Type} {x : Reading α} {f : α → Reading β} {b : β}
    (h : x.bind f = .ok b) : ∃ a, x = .ok a ∧ f a = .ok b := by
  cases x with
  | error e => simp [Except.bind] at h
  | ok a => exact ⟨a, rfl, h⟩

theorem map_eq_ok {α β : Type} {x : Reading α} {f : α → β} {b : β} (h : x.map f = .ok b) :
    ∃ a, x = .ok a ∧ f a = b := by
  cases x with
  | error e => simp [Except.map] at h
  | ok a => exact ⟨a, rfl, Except.ok.inj h⟩

/-- The value was read from a node with at most so many items. -/
def DrawnFrom {α : Type} (read : Reader α) (count : Nat) (a : α) : Prop :=
  ∃ src node, node.itemCount ≤ count ∧ read src node = .ok a

theorem DrawnFrom.mono {α : Type} {read : Reader α} {count count' : Nat} {a : α}
    (h : DrawnFrom read count a) (hle : count ≤ count') : DrawnFrom read count' a := by
  obtain ⟨src, node, hcount, hread⟩ := h
  exact ⟨src, node, Nat.le_trans hcount hle, hread⟩

/-- As many values are read as there are items, and each is read from one of them. -/
theorem readAll_eq_ok {α : Type} {read : Reader α} {src : Source} {items : Items} {as : List α}
    (h : items.readAll (read src) = .ok as) :
    as.length ≤ items.itemCount ∧ ∀ a ∈ as, DrawnFrom read items.itemCount a := by
  induction as generalizing items with
  | nil => simp
  | cons a as ih =>
    cases items with
    | closed => simp [Items.readAll] at h
    | flaw f => simp [Items.readAll] at h
    | cons head tail =>
      obtain ⟨b, hb, h⟩ := bind_eq_ok h
      obtain ⟨bs, hbs, h⟩ := bind_eq_ok h
      cases h
      have hcount : (Items.cons head tail).itemCount = head.itemCount + tail.itemCount + 1 := by
        apply Items.itemCount_cons
        rintro f rfl
        simp [Items.readAll] at hbs
      obtain ⟨hlength, hdrawn⟩ := ih hbs
      rw [hcount]
      constructor
      · simp only [List.length_cons]
        omega
      · intro x hx
        rcases List.mem_cons.mp hx with rfl | hx
        · exact ⟨src, head, by omega, hb⟩
        · exact (hdrawn x hx).mono (by omega)

theorem DrawnFrom.list {α : Type} {read : Reader α} {count : Nat} {as : List α}
    (h : DrawnFrom (Json.list read) count as) :
    as.length ≤ count ∧ ∀ a ∈ as, DrawnFrom read count a := by
  obtain ⟨src, node, hcount, hread⟩ := h
  cases node with
  | array items =>
    obtain ⟨hlength, hdrawn⟩ := readAll_eq_ok hread
    exact ⟨Nat.le_trans hlength hcount, fun a ha => (hdrawn a ha).mono hcount⟩
  | _ => simp [Json.list, Node.unwanted, refuse] at hread

namespace Fields

/-- Each value of the row is the default of its field, or was read from a node with at most so many
items. -/
def Drawn (count : Nat) {αs : List Type} : Fields αs → Row αs → Prop
  | .nil, _ => True
  | .cons field rest, (a, row) =>
    (field.default? = some a ∨ DrawnFrom field.read count a) ∧ rest.Drawn count row

/-- The same of the values that have been met so far. -/
def DrawnSlots (count : Nat) {αs : List Type} : Fields αs → Slots αs → Prop
  | .nil, _ => True
  | .cons field rest, (slot, slots) =>
    (∀ a, slot = some a → DrawnFrom field.read count a) ∧ rest.DrawnSlots count slots

variable {αs : List Type} {count : Nat} {fields : Fields αs}

theorem drawnSlots_empty : fields.DrawnSlots count fields.empty := by
  induction fields with
  | nil => trivial
  | cons field rest ih => exact ⟨by simp, ih⟩

theorem drawnSlots_put {src : Source} {key : String} {value : Node} {slots slots' : Slots αs}
    (h : fields.DrawnSlots count slots) (hvalue : value.itemCount ≤ count)
    (hput : fields.put src key value slots = .ok (some slots')) :
    fields.DrawnSlots count slots' := by
  induction fields with
  | nil => simp [put] at hput
  | cons field rest ih =>
    obtain ⟨slot, slots⟩ := slots
    rw [put_cons] at hput
    split at hput
    · cases slot with
      | some a => simp [refuse] at hput
      | none =>
        obtain ⟨a, hread, hput⟩ := map_eq_ok hput
        cases hput
        refine ⟨?_, h.2⟩
        rintro b ⟨⟩
        exact ⟨src, value, hvalue, hread⟩
    · obtain ⟨more, hrest, hput⟩ := map_eq_ok hput
      obtain ⟨more, rfl, hput⟩ := Option.map_eq_some_iff.mp hput
      cases hput
      exact ⟨h.1, ih h.2 hrest⟩

theorem drawnSlots_take {src : Source} {aside : Node → Option Fault} {key : String} {value : Node}
    {slots slots' : Slots αs} (h : fields.DrawnSlots count slots)
    (hvalue : value.itemCount ≤ count)
    (htake : fields.take src aside slots key value = .ok slots') :
    fields.DrawnSlots count slots' := by
  obtain ⟨more, hput, htake⟩ := bind_eq_ok htake
  cases more with
  | some more =>
    cases htake
    exact drawnSlots_put h hvalue hput
  | none =>
    obtain ⟨_, _, rfl⟩ := map_eq_ok htake
    exact h

theorem drawnSlots_fold {src : Source} {aside : Node → Option Fault} {members : Members}
    {slots slots' : Slots αs} (h : fields.DrawnSlots count slots)
    (hmembers : members.itemCount ≤ count)
    (hfold : members.fold (fields.take src aside) slots = .ok slots') :
    fields.DrawnSlots count slots' := by
  fun_induction Members.fold (fields.take src aside) members slots with
  | case1 slots =>
    cases hfold
    exact h
  | case2 => simp at hfold
  | case3 => simp at hfold
  | case4 => simp at hfold
  | case5 key value tail slots ih =>
    simp only [Members.itemCount] at hmembers
    obtain ⟨met, htake, hfold⟩ := bind_eq_ok hfold
    exact ih met (drawnSlots_take h (by omega) htake) (by omega) hfold

theorem drawn_complete {slots : Slots αs} {row : Row αs} (h : fields.DrawnSlots count slots)
    (hcomplete : fields.complete slots = .ok row) : fields.Drawn count row := by
  induction fields with
  | nil => trivial
  | cons field rest ih =>
    obtain ⟨slot, slots⟩ := slots
    rw [complete_cons] at hcomplete
    split at hcomplete
    · rename_i a ha
      obtain ⟨more, hrest, rfl⟩ := map_eq_ok hcomplete
      refine ⟨?_, ih h.2 hrest⟩
      cases slot with
      | none => exact .inl ha
      | some b =>
        cases ha
        exact .inr (h.1 a rfl)
    · simp [refuse] at hcomplete

theorem drawn_ofItems {src : Source} {wanted : Wanted} {seen : Nat} {items left : Items}
    {row : Row αs} (hitems : items.itemCount ≤ count)
    (hread : fields.ofItems src wanted seen items = .ok (row, left)) : fields.Drawn count row := by
  induction fields generalizing seen items left with
  | nil => trivial
  | cons field rest ih =>
    cases items with
    | flaw f => simp [ofItems] at hread
    | closed =>
      unfold ofItems at hread
      split at hread
      · simp [refuse] at hread
      · rename_i a ha
        obtain ⟨⟨more, left'⟩, hrest, hread⟩ := bind_eq_ok hread
        cases hread
        exact ⟨.inl ha, ih hitems hrest⟩
    | cons head tail =>
      obtain ⟨a, ha, hread⟩ := bind_eq_ok hread
      obtain ⟨⟨more, left'⟩, hrest, hread⟩ := bind_eq_ok hread
      cases hread
      have hle := Items.le_itemCount_cons head tail
      exact ⟨.inr ⟨src, head, by omega, ha⟩, ih (by omega) hrest⟩

end Fields

/-- What a record is built from is read from parts of its node. -/
theorem DrawnFrom.record {α : Type} {αs : List Type} {name : String} {fields : Fields αs}
    {build : Row αs → α} {count : Nat} {a : α}
    (h : DrawnFrom (Json.record name fields build) count a) :
    ∃ row, build row = a ∧ fields.Drawn count row := by
  obtain ⟨src, node, hcount, hread⟩ := h
  cases node with
  | object members =>
    obtain ⟨row, hrow, rfl⟩ := map_eq_ok hread
    rw [Fields.ofMembers_eq] at hrow
    obtain ⟨slots, hfold, hcomplete⟩ := bind_eq_ok hrow
    have hslots := Fields.drawnSlots_fold Fields.drawnSlots_empty hcount hfold
    exact ⟨row, rfl, Fields.drawn_complete hslots hcomplete⟩
  | array items =>
    obtain ⟨⟨row, left⟩, hrow, hread⟩ := bind_eq_ok hread
    obtain ⟨_, _, hread⟩ := bind_eq_ok hread
    cases hread
    exact ⟨row, rfl, Fields.drawn_ofItems hcount hrow⟩
  | _ => simp [Json.record, Node.unwanted, refuse] at hread

theorem drawnFrom_of_parse {α : Type} {read : Reader α} {text : String} {a : α}
    (h : parse read text = .ok a) : DrawnFrom read text.length a := by
  obtain ⟨b, hread, h⟩ := bind_eq_ok h
  split at h
  · simp at h
  · cases h
    exact ⟨.text, _, itemCount_scan_le text, hread⟩

end Json

/-! ## Line tables -/

theorem SourceFile.length_lineStarts_le {f : SourceFile} {count : Nat}
    (h : Json.DrawnFrom SourceFile.read count f) : f.lineStarts.length ≤ max 1 count := by
  obtain ⟨⟨path, lineStarts, decls, _⟩, rfl, _, hstarts, _⟩ := h.record
  change lineStarts.length ≤ max 1 count
  rcases hstarts with hdefault | hdrawn
  · cases hdefault
    simp
  · have := hdrawn.list.1
    omega

theorem Module.parse_eq_ok_iff (path text : String) (m : Module) :
    parse path text = .ok m ↔ Json.parse Module.read text = .ok m := by
  unfold parse
  cases Json.parse Module.read text <;> simp [Except.mapError]

/-- No line table of a module has more entries than its text has characters, unless it is the
single start that every file has by default. -/
theorem Module.length_lineStarts_le {path text : String} {m : Module}
    (h : parse path text = .ok m) {f : SourceFile} (hf : f ∈ m.files) :
    f.lineStarts.length ≤ max 1 text.length := by
  have hread := (parse_eq_ok_iff path text m).mp h
  obtain ⟨⟨name, files, _⟩, rfl, _, hfiles, _⟩ := (Json.drawnFrom_of_parse hread).record
  change f ∈ files at hf
  rcases hfiles with hdefault | hdrawn
  · cases hdefault
    simp at hf
  · exact SourceFile.length_lineStarts_le (hdrawn.list.2 f hf)

theorem length_le_utf8ByteSize (text : String) : text.length ≤ text.utf8ByteSize := by
  have hle : ∀ cs : List Char, cs.length ≤ String.utf8Len cs := by
    intro cs
    induction cs with
    | nil => simp
    | cons c cs ih =>
      have := c.utf8Size_pos
      simp only [List.length_cons, String.utf8Len_cons]
      omega
  rw [← String.length_toList, ← String.ofList_toList (s := text), String.utf8ByteSize_ofList]
  simpa using hle text.toList

end Purity
