-- The laws of written values. A layout says which spaces stand between the tokens; the compact
-- form and the indented form are two layouts. Whatever the layout, the scanner finds the tree of
-- the value and the rest of the text.
import Purity.Json.Read
import Purity.Proofs.Tokens

namespace Purity.Json

/-! ## Layouts -/

/-- Where a written form puts spaces. What stands around items and members may depend on how deep
they are. -/
structure Layout where
  before : Nat → List Char
  close : Nat → List Char
  colon : List Char
  isSpace_before : ∀ depth, ∀ c ∈ before depth, isSpace c = true
  isSpace_close : ∀ depth, ∀ c ∈ close depth, isSpace c = true
  isSpace_colon : ∀ c ∈ colon, isSpace c = true

namespace Layout

/-- No spaces at all. -/
def tight : Layout where
  before _ := []
  close _ := []
  colon := []
  isSpace_before := by simp
  isSpace_close := by simp
  isSpace_colon := by simp

theorem isSpace_indent (depth : Nat) : ∀ c ∈ indent depth [], isSpace c = true := by
  intro c hc
  simp only [indent, List.append_nil, List.mem_cons, List.mem_replicate] at hc
  rcases hc with rfl | ⟨_, rfl⟩ <;> decide

/-- Each item and member on a line of its own, two blanks further in than what it belongs to. -/
def lines : Layout where
  before depth := indent depth []
  close depth := indent depth []
  colon := [' ']
  isSpace_before := isSpace_indent
  isSpace_close := isSpace_indent
  isSpace_colon := by simp [isSpace]

mutual

/-- A value in a layout. -/
def lay (l : Layout) (depth : Nat) : Json → List Char
  | .null => ['n', 'u', 'l', 'l']
  | .bool true => ['t', 'r', 'u', 'e']
  | .bool false => ['f', 'a', 'l', 's', 'e']
  | .int i => writeInt i []
  | .float x => x.text
  | .string s => writeString s []
  | .array [] => ['[', ']']
  | .array (j :: js) =>
    '[' :: (l.before (depth + 1) ++ (l.lay (depth + 1) j ++ l.layItems depth js))
  | .object [] => ['{', '}']
  | .object ((k, j) :: ms) =>
    '{' :: (l.before (depth + 1) ++
      (writeString k (':' :: (l.colon ++ l.lay (depth + 1) j)) ++ l.layMembers depth ms))

/-- What stands behind an item of an array: the other items and the end. -/
def layItems (l : Layout) (depth : Nat) : List Json → List Char
  | [] => l.close depth ++ [']']
  | j :: js => ',' :: (l.before (depth + 1) ++ (l.lay (depth + 1) j ++ l.layItems depth js))

/-- What stands behind a member of an object: the other members and the end. -/
def layMembers (l : Layout) (depth : Nat) : List (String × Json) → List Char
  | [] => l.close depth ++ ['}']
  | (k, j) :: ms =>
    ',' :: (l.before (depth + 1) ++
      (writeString k (':' :: (l.colon ++ l.lay (depth + 1) j)) ++ l.layMembers depth ms))

end

end Layout

/-! ## Plain values -/

/-- All numbers in the value are whole and fit 64 bits. -/
inductive Plain : Json → Prop
  | null : Plain .null
  | bool (b : Bool) : Plain (.bool b)
  | int {i : Int} (h : -0x8000000000000000 ≤ i ∧ i < 0x10000000000000000) : Plain (.int i)
  | string (s : String) : Plain (.string s)
  | array {items : List Json} (h : ∀ j ∈ items, Plain j) : Plain (.array items)
  | object {members : List (String × Json)} (h : ∀ m ∈ members, Plain m.2) : Plain (.object members)

@[simp] theorem plain_array {items : List Json} :
    Plain (.array items) ↔ ∀ j ∈ items, Plain j := by
  refine ⟨?_, .array⟩
  rintro ⟨⟩
  assumption

@[simp] theorem plain_object {members : List (String × Json)} :
    Plain (.object members) ↔ ∀ m ∈ members, Plain m.2 := by
  refine ⟨?_, .object⟩
  rintro ⟨⟩
  assumption

@[simp] theorem plain_int {i : Int} :
    Plain (.int i) ↔ -0x8000000000000000 ≤ i ∧ i < 0x10000000000000000 := by
  refine ⟨?_, .int⟩
  rintro ⟨⟩
  assumption

attribute [simp] Plain.null Plain.bool Plain.string

mutual

/-- There is nothing wrong with the tree of a value. -/
theorem takeFault_toNode : ∀ j : Json, (toNode j).takeFault = none
  | .null => rfl
  | .bool _ => rfl
  | .int _ => rfl
  | .float _ => rfl
  | .string _ => rfl
  | .array items => takeFault_toItems items
  | .object members => takeFault_toMembers members

theorem takeFault_toItems : ∀ items : List Json, (toItems items).takeFault = none
  | [] => rfl
  | j :: js => by
    rw [toItems, Items.takeFault, takeFault_toNode j, takeFault_toItems js]
    rfl

theorem takeFault_toMembers : ∀ members : List (String × Json),
    (toMembers members).takeFault = none
  | [] => rfl
  | (k, j) :: ms => by
    rw [toMembers, Members.takeFault, takeFault_toNode j, takeFault_toMembers ms]
    rfl

end

mutual

/-- A tree with nothing wrong in it is the tree of a value. -/
theorem exists_toNode : ∀ n : Node, n.takeFault = none → ∃ j, toNode j = n
  | .null, _ => ⟨.null, rfl⟩
  | .bool b, _ => ⟨.bool b, rfl⟩
  | .number (.int i), _ => ⟨.int i, rfl⟩
  | .number (.float x), _ => ⟨.float x, rfl⟩
  | .string s, _ => ⟨.string s, rfl⟩
  | .array items, h => by
    obtain ⟨js, rfl⟩ := exists_toItems items h
    exact ⟨.array js, rfl⟩
  | .object members, h => by
    obtain ⟨ms, rfl⟩ := exists_toMembers members h
    exact ⟨.object ms, rfl⟩

theorem exists_toItems : ∀ items : Items, items.takeFault = none → ∃ js, toItems js = items
  | .closed, _ => ⟨[], rfl⟩
  | .cons head tail, h => by
    rw [Items.takeFault, Option.or_eq_none_iff] at h
    obtain ⟨j, rfl⟩ := exists_toNode head h.1
    obtain ⟨js, rfl⟩ := exists_toItems tail h.2
    exact ⟨j :: js, rfl⟩

theorem exists_toMembers : ∀ members : Members, members.takeFault = none →
    ∃ ms, toMembers ms = members
  | .closed, _ => ⟨[], rfl⟩
  | .cons (some key) value tail, h => by
    rw [Members.takeFault, Option.or_eq_none_iff] at h
    obtain ⟨j, rfl⟩ := exists_toNode value h.1
    obtain ⟨ms, rfl⟩ := exists_toMembers tail h.2
    exact ⟨(key, j) :: ms, rfl⟩

end

/-! ## The written forms are layouts -/

theorem writeString_append (s : String) (cs rest : List Char) :
    writeString s cs ++ rest = writeString s (cs ++ rest) := by
  simp [writeString]

theorem writeInt_eq (i : Int) (rest : List Char) : writeInt i rest = writeInt i [] ++ rest := by
  unfold writeInt
  split <;> simp

theorem indent_eq (depth : Nat) (rest : List Char) :
    indent depth rest = indent depth [] ++ rest := by
  simp [indent]

theorem write_items {j : Json} {items : List Json}
    (h : ∀ x ∈ j :: items, ∀ depth rest, x.write rest = Layout.tight.lay depth x ++ rest)
    (depth : Nat) (rest : List Char) :
    writeItems (j :: items) (']' :: rest) =
      Layout.tight.lay (depth + 1) j ++ (Layout.tight.layItems depth items ++ rest) := by
  induction items generalizing j with
  | nil =>
    rw [writeItems, h j List.mem_cons_self (depth + 1)]
    simp [Layout.layItems, Layout.tight]
  | cons j' js ih =>
    rw [writeItems, h j List.mem_cons_self (depth + 1),
      ih fun x hx => h x (List.mem_cons_of_mem j hx)]
    simp [Layout.layItems, Layout.tight]

theorem write_members {k : String} {j : Json} {members : List (String × Json)}
    (h : ∀ m ∈ (k, j) :: members, ∀ depth rest, m.2.write rest = Layout.tight.lay depth m.2 ++ rest)
    (depth : Nat) (rest : List Char) :
    writeMembers ((k, j) :: members) ('}' :: rest) =
      writeString k (':' :: (Layout.tight.lay (depth + 1) j ++
        (Layout.tight.layMembers depth members ++ rest))) := by
  induction members generalizing k j with
  | nil =>
    rw [writeMembers, h (k, j) List.mem_cons_self (depth + 1)]
    simp [Layout.layMembers, Layout.tight]
  | cons m ms ih =>
    obtain ⟨k', j'⟩ := m
    rw [writeMembers, h (k, j) List.mem_cons_self (depth + 1),
      ih fun x hx => h x (List.mem_cons_of_mem (k, j) hx)]
    simp [Layout.layMembers, Layout.tight, writeString_append]

theorem Plain.write_eq {j : Json} (h : j.Plain) :
    ∀ depth rest, j.write rest = Layout.tight.lay depth j ++ rest := by
  induction h with
  | null => intro depth rest; rfl
  | bool b => intro depth rest; cases b <;> rfl
  | int h => intro depth rest; exact writeInt_eq _ rest
  | string s =>
    intro depth rest
    rw [write, Layout.lay, writeString_append, List.nil_append]
  | @array items h ih =>
    intro depth rest
    cases items with
    | nil => rfl
    | cons j js =>
      rw [write, write_items ih depth]
      simp [Layout.lay, Layout.tight]
  | @object members h ih =>
    intro depth rest
    cases members with
    | nil => rfl
    | cons m ms =>
      obtain ⟨k, j⟩ := m
      rw [write, write_members ih depth]
      simp [Layout.lay, Layout.tight, writeString_append]

theorem writePretty_items {j : Json} {items : List Json}
    (h : ∀ x ∈ j :: items, ∀ depth rest,
      x.writePretty depth rest = Layout.lines.lay depth x ++ rest)
    (depth : Nat) (rest : List Char) :
    writePrettyItems (j :: items) depth rest =
      Layout.lines.lay (depth + 1) j ++ (Layout.lines.layItems depth items ++ rest) := by
  induction items generalizing j with
  | nil =>
    rw [writePrettyItems, h j List.mem_cons_self (depth + 1), indent_eq]
    simp [Layout.layItems, Layout.lines]
  | cons j' js ih =>
    rw [writePrettyItems, h j List.mem_cons_self (depth + 1), indent_eq,
      ih fun x hx => h x (List.mem_cons_of_mem j hx)]
    simp [Layout.layItems, Layout.lines]

theorem writePretty_members {k : String} {j : Json} {members : List (String × Json)}
    (h : ∀ m ∈ (k, j) :: members, ∀ depth rest,
      m.2.writePretty depth rest = Layout.lines.lay depth m.2 ++ rest)
    (depth : Nat) (rest : List Char) :
    writePrettyMembers ((k, j) :: members) depth rest =
      writeString k (':' :: ' ' :: (Layout.lines.lay (depth + 1) j ++
        (Layout.lines.layMembers depth members ++ rest))) := by
  induction members generalizing k j with
  | nil =>
    rw [writePrettyMembers, h (k, j) List.mem_cons_self (depth + 1), indent_eq]
    simp [Layout.layMembers, Layout.lines]
  | cons m ms ih =>
    obtain ⟨k', j'⟩ := m
    rw [writePrettyMembers, h (k, j) List.mem_cons_self (depth + 1), indent_eq,
      ih fun x hx => h x (List.mem_cons_of_mem (k, j) hx)]
    simp [Layout.layMembers, Layout.lines, writeString_append]

theorem Plain.writePretty_eq {j : Json} (h : j.Plain) :
    ∀ depth rest, j.writePretty depth rest = Layout.lines.lay depth j ++ rest := by
  induction h with
  | null => intro depth rest; rfl
  | bool b => intro depth rest; cases b <;> rfl
  | int h => intro depth rest; exact writeInt_eq _ rest
  | string s =>
    intro depth rest
    rw [writePretty, write, Layout.lay, writeString_append, List.nil_append]
  | @array items h ih =>
    intro depth rest
    cases items with
    | nil => rfl
    | cons j js =>
      rw [writePretty, writePretty_items ih, indent_eq]
      simp [Layout.lay, Layout.lines]
  | @object members h ih =>
    intro depth rest
    cases members with
    | nil => rfl
    | cons m ms =>
      obtain ⟨k, j⟩ := m
      rw [writePretty, writePretty_members ih, indent_eq]
      simp [Layout.lay, Layout.lines, writeString_append]

/-! ## Scanning a layout -/

namespace Layout

variable (l : Layout)

theorem isSpace_of_isDigit {c : Char} (h : c.isDigit = true) : isSpace c = false := by
  rw [← Bool.not_eq_true]
  intro hs
  simp only [isSpace, Bool.or_eq_true, decide_eq_true_eq] at hs
  rcases hs with ((rfl | rfl) | rfl) | rfl <;> simp at h

/-- A value begins with a character that is neither a space nor the end of an array. -/
theorem head_lay {j : Json} (h : j.Plain) (depth : Nat) :
    ∃ c cs, l.lay depth j = c :: cs ∧ isSpace c = false ∧ c ≠ ']' := by
  cases h with
  | null => exact ⟨_, _, rfl, rfl, by decide⟩
  | bool b => cases b <;> exact ⟨_, _, rfl, rfl, by decide⟩
  | @int i h =>
    rw [lay, writeInt]
    split
    · exact ⟨_, _, rfl, rfl, by decide⟩
    · have hne : Nat.toDigits 10 i.natAbs ≠ [] := Nat.toDigits_ne_nil
      obtain ⟨c, cs, hc⟩ := List.exists_cons_of_ne_nil hne
      have hd : c.isDigit = true := isDigit_of_mem_toDigits (n := i.natAbs) (by simp [hc])
      refine ⟨c, cs, by rw [hc, List.append_nil], isSpace_of_isDigit hd, ?_⟩
      rintro rfl
      simp at hd
  | string s => exact ⟨_, _, rfl, rfl, by decide⟩
  | @array items h =>
    cases items with
    | nil => exact ⟨_, _, rfl, rfl, by decide⟩
    | cons j js => exact ⟨_, _, rfl, rfl, by decide⟩
  | @object members h =>
    cases members with
    | nil => exact ⟨_, _, rfl, rfl, by decide⟩
    | cons m ms =>
      obtain ⟨k, j⟩ := m
      exact ⟨_, _, rfl, rfl, by decide⟩

theorem ends_layItems (depth : Nat) (items : List Json) (rest : List Char) :
    Ends (l.layItems depth items ++ rest) := by
  cases items with
  | nil =>
    rw [layItems, List.append_assoc]
    exact ends_append (l.isSpace_close depth) (ends_cons (by decide))
  | cons j js => exact ends_cons (by decide)

theorem ends_layMembers (depth : Nat) (members : List (String × Json)) (rest : List Char) :
    Ends (l.layMembers depth members ++ rest) := by
  cases members with
  | nil =>
    rw [layMembers, List.append_assoc]
    exact ends_append (l.isSpace_close depth) (ends_cons (by decide))
  | cons m ms => exact ends_cons (by decide)

/-- With enough fuel the scanner finds the tree of the value, at any depth. -/
def Scans (j : Json) : Prop :=
  ∀ depth rest fuel, Ends rest → 2 * (l.lay depth j ++ rest).length + 1 ≤ fuel →
    scanValue fuel (l.lay depth j ++ rest) = (toNode j, rest)

theorem scanValue_append {spaces : List Char} (h : ∀ c ∈ spaces, isSpace c = true) (fuel : Nat)
    (cs : List Char) : scanValue fuel (spaces ++ cs) = scanValue fuel cs := by
  cases fuel with
  | zero => rfl
  | succ fuel => simp only [scanValue, skipSpace_append h]

theorem scanValue_of_isDigit {c : Char} (h : c.isDigit = true) (fuel : Nat) (cs : List Char) :
    scanValue (fuel + 1) (c :: cs) = scanNumber false (c :: cs) := by
  rw [scanValue, skipSpace_of_not_isSpace (isSpace_of_isDigit h)]
  split <;> simp_all

/-- Items are scanned one after the other, each with less fuel and less text than the one before. -/
theorem scanItems_lay {j : Json} {items : List Json} (hp : ∀ x ∈ j :: items, x.Plain)
    (h : ∀ x ∈ j :: items, l.Scans x) (depth fuel : Nat) (rest : List Char)
    (hf : 2 * (l.lay (depth + 1) j ++ (l.layItems depth items ++ rest)).length + 2 ≤ fuel) :
    scanItems fuel (l.lay (depth + 1) j ++ (l.layItems depth items ++ rest)) =
      (toItems (j :: items), rest) := by
  induction items generalizing j fuel with
  | nil =>
    obtain ⟨fuel, rfl⟩ : ∃ f, fuel = f + 1 := ⟨fuel - 1, by omega⟩
    have hvalue := h j List.mem_cons_self (depth + 1) _ fuel (l.ends_layItems depth [] rest)
      (by omega)
    obtain ⟨c, cs, hc, _, _⟩ := l.head_lay (hp j List.mem_cons_self) (depth + 1)
    rw [hc, List.cons_append] at hvalue ⊢
    simp only [scanItems, hvalue]
    rw [layItems, List.append_assoc, skipSpace_append (l.isSpace_close depth),
      List.singleton_append, skipSpace_of_not_isSpace (by decide)]
    rfl
  | cons j' js ih =>
    obtain ⟨fuel, rfl⟩ : ∃ f, fuel = f + 1 := ⟨fuel - 1, by omega⟩
    have hvalue := h j List.mem_cons_self (depth + 1) _ fuel (l.ends_layItems depth (j' :: js) rest)
      (by omega)
    have hp' : ∀ x ∈ j' :: js, x.Plain := fun x hx => hp x (List.mem_cons_of_mem j hx)
    have hitems := ih hp' (fun x hx => h x (List.mem_cons_of_mem j hx)) fuel (by
      simp only [layItems, List.length_append, List.length_cons] at hf ⊢
      omega)
    obtain ⟨c, cs, hc, _, _⟩ := l.head_lay (hp j List.mem_cons_self) (depth + 1)
    obtain ⟨c', cs', hc', hs', he'⟩ := l.head_lay (hp' j' List.mem_cons_self) (depth + 1)
    rw [hc, List.cons_append] at hvalue ⊢
    simp only [scanItems, hvalue]
    rw [layItems, List.cons_append, skipSpace_of_not_isSpace (by decide)]
    simp only [List.append_assoc, skipSpace_append (l.isSpace_before (depth + 1))]
    rw [hc', List.cons_append] at hitems ⊢
    rw [skipSpace_of_not_isSpace hs']
    split
    · simp_all
    · simp_all
    · rw [hitems]
      rfl

theorem scanMembers_lay {k : String} {j : Json} {members : List (String × Json)}
    (h : ∀ m ∈ (k, j) :: members, l.Scans m.2) (depth fuel : Nat) (rest : List Char)
    (hf : 2 * (writeString k (':' :: (l.colon ++ (l.lay (depth + 1) j ++
      (l.layMembers depth members ++ rest))))).length + 2 ≤ fuel) :
    scanMembers fuel (writeString k (':' :: (l.colon ++ (l.lay (depth + 1) j ++
      (l.layMembers depth members ++ rest))))) = (toMembers ((k, j) :: members), rest) := by
  induction members generalizing k j fuel with
  | nil =>
    obtain ⟨fuel, rfl⟩ : ∃ f, fuel = f + 1 := ⟨fuel - 1, by omega⟩
    have hvalue := h (k, j) List.mem_cons_self (depth + 1) _ fuel
      (l.ends_layMembers depth [] rest) (by
        simp only [writeString, List.length_append, List.length_cons] at hf ⊢
        omega)
    simp only [writeString, scanMembers, scanString_written]
    rw [skipSpace_of_not_isSpace (by decide)]
    simp only [scanValue_append l.isSpace_colon, hvalue]
    rw [layMembers, List.append_assoc, skipSpace_append (l.isSpace_close depth),
      List.singleton_append, skipSpace_of_not_isSpace (by decide)]
    rfl
  | cons m ms ih =>
    obtain ⟨k', j'⟩ := m
    obtain ⟨fuel, rfl⟩ : ∃ f, fuel = f + 1 := ⟨fuel - 1, by omega⟩
    have hvalue := h (k, j) List.mem_cons_self (depth + 1) _ fuel
      (l.ends_layMembers depth ((k', j') :: ms) rest) (by
        simp only [writeString, List.length_append, List.length_cons] at hf ⊢
        omega)
    have hmembers := ih (fun m hm => h m (List.mem_cons_of_mem (k, j) hm)) fuel (by
      simp only [layMembers, writeString, List.length_append, List.length_cons] at hf ⊢
      omega)
    simp only [writeString, scanMembers, scanString_written]
    rw [skipSpace_of_not_isSpace (by decide)]
    simp only [scanValue_append l.isSpace_colon, hvalue]
    rw [layMembers, List.cons_append, skipSpace_of_not_isSpace (by decide)]
    simp only [List.append_assoc, skipSpace_append (l.isSpace_before (depth + 1)),
      writeString_append, List.cons_append]
    rw [writeString] at hmembers ⊢
    rw [skipSpace_of_not_isSpace (by decide)]
    simp only [hmembers]
    rfl

theorem scanValue_writeInt {i : Int} (h : -0x8000000000000000 ≤ i ∧ i < 0x10000000000000000)
    {rest : List Char} (he : Ends rest) (fuel : Nat) :
    scanValue (fuel + 1) (writeInt i rest) = (toNode (.int i), rest) := by
  unfold writeInt
  split
  · rename_i hneg
    rw [scanValue, skipSpace_of_not_isSpace (by decide)]
    simp only [scanNumber_toDigits he]
    rw [numberOf_negative_toDigits (by omega) (by omega), toNode]
    congr
    omega
  · have hne : Nat.toDigits 10 i.natAbs ≠ [] := Nat.toDigits_ne_nil
    obtain ⟨c, cs, hc⟩ := List.exists_cons_of_ne_nil hne
    have hd : c.isDigit = true := isDigit_of_mem_toDigits (n := i.natAbs) (by simp [hc])
    have hnumber := scanNumber_toDigits he false i.natAbs
    rw [hc, List.cons_append] at hnumber ⊢
    rw [scanValue_of_isDigit hd, hnumber, ← hc, numberOf_toDigits (by unfold UInt64.size; omega),
      toNode]
    congr
    omega

/-- The fuel is never used up. -/
theorem scans_of_succ {j : Json} (h : ∀ depth rest fuel, Ends rest →
    2 * (l.lay depth j ++ rest).length ≤ fuel →
      scanValue (fuel + 1) (l.lay depth j ++ rest) = (toNode j, rest)) : l.Scans j := by
  intro depth rest fuel he hf
  obtain ⟨fuel, rfl⟩ : ∃ f, fuel = f + 1 := ⟨fuel - 1, by omega⟩
  exact h depth rest fuel he (by omega)

/-- The scanner reads back every plain value, whatever its layout and its depth. -/
theorem scans {j : Json} (h : j.Plain) : l.Scans j := by
  induction h with
  | null => exact l.scans_of_succ fun _ _ _ _ _ => rfl
  | bool b => cases b <;> exact l.scans_of_succ fun _ _ _ _ _ => rfl
  | int h =>
    apply l.scans_of_succ
    intro depth rest fuel he _
    rw [lay, ← writeInt_eq]
    exact scanValue_writeInt h he fuel
  | string s =>
    apply l.scans_of_succ
    intro depth rest fuel _ _
    rw [lay, writeString_append, writeString, scanValue, skipSpace_of_not_isSpace (by decide)]
    simp only [List.nil_append, scanString_written]
    rfl
  | @array items hp ih =>
    apply l.scans_of_succ
    intro depth rest fuel _ hf
    cases items with
    | nil => rfl
    | cons j js =>
      have hitems := l.scanItems_lay hp ih depth fuel rest (by
        simp only [lay, List.length_append, List.length_cons] at hf ⊢
        omega)
      rw [lay, List.cons_append, scanValue, skipSpace_of_not_isSpace (by decide)]
      simp only [List.append_assoc, skipSpace_append (l.isSpace_before (depth + 1))]
      obtain ⟨c, cs, hc, hs, he⟩ := l.head_lay (hp j List.mem_cons_self) (depth + 1)
      rw [hc, List.cons_append] at hitems ⊢
      rw [skipSpace_of_not_isSpace hs]
      split
      · simp_all
      · rw [hitems]
        rfl
  | @object members hp ih =>
    apply l.scans_of_succ
    intro depth rest fuel _ hf
    cases members with
    | nil => rfl
    | cons m ms =>
      obtain ⟨k, j⟩ := m
      have hmembers := l.scanMembers_lay ih depth fuel rest (by
        simp only [lay, writeString, List.length_append, List.length_cons] at hf ⊢
        omega)
      rw [lay, List.cons_append, scanValue, skipSpace_of_not_isSpace (by decide)]
      simp only [List.append_assoc, skipSpace_append (l.isSpace_before (depth + 1)),
        writeString_append, List.cons_append]
      rw [writeString] at hmembers ⊢
      rw [skipSpace_of_not_isSpace (by decide)]
      split
      · simp_all
      · rw [hmembers]
        rfl

end Layout

/-! ## Reading a whole text -/

/-- The text is JSON throughout, with nothing but space around it, and stands for the value. -/
def IsTextOf (text : String) (j : Json) : Prop := Document.scan text = ⟨toNode j, false⟩

theorem IsTextOf.parse_eq {α : Type} {text : String} {j : Json} (h : IsTextOf text j)
    (read : Reader α) : parse read text = read .text (toNode j) := by
  unfold IsTextOf at h
  simp only [parse, h]
  cases read .text (toNode j) <;> rfl

/-- A text stands for a value if everything in it can be taken. -/
theorem exists_isTextOf_iff (text : String) :
    (∃ j, IsTextOf text j) ↔
      (Document.scan text).root.takeFault = none ∧ (Document.scan text).trailing = false := by
  constructor
  · rintro ⟨j, h⟩
    rw [h]
    exact ⟨takeFault_toNode j, rfl⟩
  · rintro ⟨hroot, htrailing⟩
    obtain ⟨j, hj⟩ := exists_toNode _ hroot
    refine ⟨j, ?_⟩
    rw [IsTextOf, hj, ← htrailing]

theorem isTextOf_lay (l : Layout) {j : Json} (h : j.Plain) (depth : Nat) {rest : List Char}
    (hrest : ∀ c ∈ rest, isSpace c = true) :
    IsTextOf (String.ofList (l.lay depth j ++ rest)) j := by
  have hends : Ends rest := by
    rw [← List.append_nil rest]
    exact ends_append hrest ends_nil
  have hspace : skipSpace rest = [] := by
    rw [← List.append_nil rest, skipSpace_append hrest]
    rfl
  have hscan := l.scans h depth rest (2 * (l.lay depth j ++ rest).length + 2) hends (by omega)
  unfold IsTextOf Document.scan
  simp only [String.toList_ofList, hscan, hspace]
  rfl

theorem isTextOf_compact {j : Json} (h : j.Plain) : IsTextOf j.compact j := by
  rw [compact, h.write_eq 0]
  exact isTextOf_lay .tight h 0 (by simp)

/-- Reading the compact form of a value is reading its tree. -/
theorem parse_compact {α : Type} (read : Reader α) {j : Json} (h : j.Plain) :
    parse read j.compact = read .text (toNode j) :=
  (isTextOf_compact h).parse_eq read

theorem Plain.pretty_eq {j : Json} (h : j.Plain) :
    j.pretty ++ "\n" = String.ofList (Layout.lines.lay 0 j ++ ['\n']) := by
  rw [pretty, h.writePretty_eq, List.append_nil, String.ofList_append]

/-- Reading the indented form of a value and an end of line is reading its tree. -/
theorem parse_pretty {α : Type} (read : Reader α) {j : Json} (h : j.Plain) :
    parse read (j.pretty ++ "\n") = read .text (toNode j) := by
  rw [h.pretty_eq]
  exact (isTextOf_lay .lines h 0 (by simp [isSpace])).parse_eq read

end Purity.Json
