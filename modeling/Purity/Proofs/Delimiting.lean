-- An accepted text says by itself where it ends. What is scanned for a value does not depend on the
-- text behind it, unless a number could go on there; and a reader that accepts a value has met no
-- flaw in it. So with more text behind it the value stays the same, and the end of the text has
-- just that text left to judge.
import Mathlib.Data.List.TakeWhile
import Purity.Proofs.Extent

namespace Purity

namespace Json

/-! ## Values without a flaw -/

mutual

/-- What can be taken can be passed over. -/
theorem Node.passFault_of_takeFault : ∀ (node : Node), node.takeFault = none → node.passFault = none
  | .null, _ => rfl
  | .bool _, _ => rfl
  | .number _, _ => rfl
  | .string _, _ => rfl
  | .array items, h => items.passFault_of_takeFault h
  | .object members, h => members.passFault_of_takeFault h
  | .untakable, h => by simp [Node.takeFault] at h
  | .flaw f, h => by simp [Node.takeFault] at h

theorem Items.passFault_of_takeFault : ∀ (items : Items), items.takeFault = none →
    items.passFault = none
  | .closed, _ => rfl
  | .flaw f, h => by simp [Items.takeFault] at h
  | .cons head tail, h => by
    rw [Items.takeFault, Option.or_eq_none_iff] at h
    rw [Items.passFault, head.passFault_of_takeFault h.1, tail.passFault_of_takeFault h.2]
    rfl

theorem Members.passFault_of_takeFault : ∀ (members : Members), members.takeFault = none →
    members.passFault = none
  | .closed, _ => rfl
  | .flaw f, h => by simp [Members.takeFault] at h
  | .keyless _, h => by simp [Members.takeFault] at h
  | .cons none _ _, h => by simp [Members.takeFault] at h
  | .cons (some _) value tail, h => by
    rw [Members.takeFault, Option.or_eq_none_iff] at h
    rw [Members.passFault, value.passFault_of_takeFault h.1, tail.passFault_of_takeFault h.2]
    rfl

end

/-! ## Tokens with more text behind them -/

/-- What was scanned, with more text behind the rest. -/
def withMore {β : Type} (more : List Char) (scanned : β × List Char) : β × List Char :=
  (scanned.1, scanned.2 ++ more)

variable {more : List Char}

theorem skipSpace_append_of_ne {cs : List Char} (h : skipSpace cs ≠ []) :
    skipSpace (cs ++ more) = skipSpace cs ++ more := by
  unfold skipSpace at h ⊢
  rw [List.dropWhile_append, if_neg]
  simpa using h

theorem skipSpace_append_of_cons {cs rest : List Char} {c : Char} (h : skipSpace cs = c :: rest) :
    skipSpace (cs ++ more) = c :: (rest ++ more) := by
  rw [skipSpace_append_of_ne (by simp [h]), h]
  rfl

theorem digits_append (more : List Char) {cs : List Char} (h : cs.dropWhile Char.isDigit ≠ []) :
    (cs ++ more).takeWhile Char.isDigit = cs.takeWhile Char.isDigit ∧
      (cs ++ more).dropWhile Char.isDigit = cs.dropWhile Char.isDigit ++ more := by
  constructor
  · rw [List.takeWhile_append, if_neg]
    intro hlength
    have hsplit := congrArg List.length (List.takeWhile_append_dropWhile (p := Char.isDigit) (l := cs))
    rw [List.length_append, hlength] at hsplit
    exact h (List.length_eq_zero_iff.mp (by omega))
  · rw [List.dropWhile_append, if_neg]
    simpa using h

theorem scanPieces_append {acc acc' : List Piece} {cs rest : List Char}
    (h : scanPieces acc cs = (acc', .ok rest)) :
    scanPieces acc (cs ++ more) = (acc', .ok (rest ++ more)) := by
  fun_induction scanPieces acc cs
  case case2 acc behind =>
    cases h
    simp [scanPieces]
  case case4 hunit ih =>
    simp only [List.cons_append, scanPieces, hunit]
    exact ih h
  case case7 he c hescape ih =>
    simp only [List.cons_append]
    rw [scanPieces]
    · simp only [he, if_false, hescape]
      exact ih h
    all_goals simp_all
  case case10 c rest hquote hslash hunit hescape hcontrol ih =>
    have hne : c ≠ '\\' := by
      rintro rfl
      cases rest with
      | nil => exact hslash rfl rfl
      | cons e rest => exact hescape e rest rfl rfl
    rw [List.cons_append, scanPieces]
    · rw [if_neg hcontrol]
      exact ih h
    all_goals simp_all
  all_goals simp at h

theorem scanString_append {cs rest : List Char} {s : Option String}
    (h : scanString cs = .ok (s, rest)) : scanString (cs ++ more) = .ok (s, rest ++ more) := by
  unfold scanString at h ⊢
  split at h
  · rename_i acc behind hp
    cases h
    rw [scanPieces_append hp]
  · simp at h

theorem scanExponent_append {negative : Bool} {whole places cs : List Char}
    (h : (scanExponent negative whole places cs).2 ≠ []) :
    scanExponent negative whole places (cs ++ more) =
      withMore more (scanExponent negative whole places cs) := by
  unfold scanExponent at h ⊢
  extract_lets signed marked
  have hsigned : ∀ minus cs, (signed minus cs).2 ≠ [] →
      signed minus (cs ++ more) = withMore more (signed minus cs) := by
    intro minus cs h
    unfold signed at h ⊢
    split at h
    · simp [numberFlaw] at h
    · obtain ⟨htake, hdrop⟩ := digits_append more h
      rw [htake, hdrop]
      split
      · simp_all
      · rfl
  have hmarked : ∀ cs, (marked cs).2 ≠ [] → marked (cs ++ more) = withMore more (marked cs) := by
    intro cs h
    cases cs with
    | nil => exact absurd rfl h
    | cons c cs =>
      unfold marked at h ⊢
      rw [List.cons_append]
      split at h
      · rename_i heq
        cases heq
        exact hsigned false _ h
      · rename_i heq
        cases heq
        exact hsigned true _ h
      · split
        · simp_all
        · simp_all
        · exact hsigned false _ h
  cases cs with
  | nil => exact absurd rfl h
  | cons c cs =>
    rw [List.cons_append]
    split at h
    · rename_i heq
      cases heq
      exact hmarked _ h
    · rename_i heq
      cases heq
      exact hmarked _ h
    · split
      · simp_all
      · simp_all
      · rfl

theorem scanPlaces_append {negative : Bool} {whole cs : List Char}
    (h : (scanPlaces negative whole cs).2 ≠ []) :
    scanPlaces negative whole (cs ++ more) = withMore more (scanPlaces negative whole cs) := by
  cases cs with
  | nil => exact absurd rfl h
  | cons c cs =>
    unfold scanPlaces at h ⊢
    rw [List.cons_append]
    split at h
    · rename_i heq
      cases heq
      split at h
      · simp [numberFlaw] at h
      · have hdrop : cs.dropWhile Char.isDigit ≠ [] := by
          intro hnil
          rw [hnil] at h
          exact h rfl
        obtain ⟨htake, hdrop⟩ := digits_append more hdrop
        simp only [htake, hdrop]
        exact scanExponent_append h
    · split
      · simp_all
      · exact scanExponent_append h

theorem scanNumber_append {negative : Bool} {cs : List Char}
    (h : (scanNumber negative cs).2 ≠ []) :
    scanNumber negative (cs ++ more) = withMore more (scanNumber negative cs) := by
  unfold scanNumber at h ⊢
  split at h
  · simp [numberFlaw] at h
  · simp at h
  · have hdrop : cs.dropWhile Char.isDigit ≠ [] := by
      intro hnil
      rw [hnil] at h
      exact h rfl
    obtain ⟨htake, hdrop⟩ := digits_append more hdrop
    rw [htake, hdrop]
    split
    · simp_all
    · simp_all
    · exact scanPlaces_append h

theorem scanWord_append {node : Node} {word cs : List Char}
    (h : (scanWord node word cs).1.passFault = none) :
    scanWord node word (cs ++ more) = withMore more (scanWord node word cs) := by
  induction word generalizing cs with
  | nil => rfl
  | cons w ws ih =>
    cases cs with
    | nil => simp [scanWord, Node.passFault] at h
    | cons c cs =>
      rw [List.cons_append]
      unfold scanWord at h ⊢
      split at h
      · rename_i hc
        rw [if_pos hc, if_pos hc]
        exact ih h
      · simp [Node.passFault] at h

/-! ## Values with more text behind them -/

/-- Whether a value ends with a bracket of its own. -/
def Node.bracketed : Node → Bool
  | .array _ => true
  | .object _ => true
  | _ => false

theorem bracketed_numberOf (negative : Bool) (whole places : List Char) (e : Option Int) :
    (numberOf negative whole places e).bracketed = false := by
  unfold numberOf
  grind [Node.bracketed]

theorem bracketed_scanExponent (negative : Bool) (whole places cs : List Char) :
    (scanExponent negative whole places cs).1.bracketed = false := by
  unfold scanExponent
  extract_lets signed marked
  have hsigned : ∀ minus cs, (signed minus cs).1.bracketed = false := by
    intro minus cs
    unfold signed
    split
    · rfl
    · exact bracketed_numberOf ..
  have hmarked : ∀ cs, (marked cs).1.bracketed = false := by
    intro cs
    unfold marked
    split <;> exact hsigned _ _
  split
  · exact hmarked _
  · exact hmarked _
  · exact bracketed_numberOf ..

/-- No number is in brackets. -/
theorem bracketed_scanNumber (negative : Bool) (cs : List Char) :
    (scanNumber negative cs).1.bracketed = false := by
  unfold scanNumber
  split
  · rfl
  · rfl
  · unfold scanPlaces
    split
    · split
      · rfl
      · exact bracketed_scanExponent ..
    · exact bracketed_scanExponent ..

/-- A value was scanned without a flaw, and it can be seen where it ends: at its bracket, or because
something follows. -/
structure Whole (scanned : Node × List Char) : Prop where
  sound : scanned.1.passFault = none
  delimited : scanned.1.bracketed = true ∨ scanned.2 ≠ []

theorem Whole.scanNumber_append {negative : Bool} {cs : List Char}
    (h : Whole (scanNumber negative cs)) :
    scanNumber negative (cs ++ more) = withMore more (scanNumber negative cs) := by
  apply Json.scanNumber_append
  rcases h.delimited with hbracket | hrest
  · simp [bracketed_scanNumber] at hbracket
  · exact hrest

theorem whole_of_skipSpace {node : Node} {rest next : List Char} {c : Char}
    (hnode : node.passFault = none) (h : skipSpace rest = c :: next) : Whole (node, rest) := by
  refine ⟨hnode, .inr ?_⟩
  rintro rfl
  simp [skipSpace] at h

theorem passFault_scanItems_nil (fuel : Nat) : (scanItems fuel []).1.passFault ≠ none := by
  cases fuel <;> simp [scanItems, Items.passFault]

theorem passFault_scanMembers_nil (fuel : Nat) : (scanMembers fuel []).1.passFault ≠ none := by
  cases fuel <;> simp [scanMembers, Members.passFault]

section

variable {fuel fuel' : Nat}
  (hvalue : ∀ cs, Whole (scanValue fuel cs) →
    scanValue fuel' (cs ++ more) = withMore more (scanValue fuel cs))
  (hitems : ∀ cs, (scanItems fuel cs).1.passFault = none →
    scanItems fuel' (cs ++ more) = withMore more (scanItems fuel cs))
  (hmembers : ∀ cs, (scanMembers fuel cs).1.passFault = none →
    scanMembers fuel' (cs ++ more) = withMore more (scanMembers fuel cs))

include hitems hmembers in
theorem scanValue_append_succ (cs : List Char) (h : Whole (scanValue (fuel + 1) cs)) :
    scanValue (fuel' + 1) (cs ++ more) = withMore more (scanValue (fuel + 1) cs) := by
  rw [scanValue] at h
  cases hs : skipSpace cs with
  | nil =>
    rw [hs] at h
    cases h.sound
  | cons c inner =>
    rw [hs] at h
    rw [scanValue, scanValue, skipSpace_append_of_cons hs, hs]
    split at h
    · simp_all
    · rename_i heq
      cases heq
      exact scanWord_append h.sound
    · rename_i heq
      cases heq
      exact scanWord_append h.sound
    · rename_i heq
      cases heq
      exact scanWord_append h.sound
    · rename_i heq
      cases heq
      split at h
      · rename_i hstring
        simp only [scanString_append hstring]
        rfl
      · rename_i hstring
        simp only [scanString_append hstring]
        rfl
      · cases h.sound
    · rename_i heq
      cases heq
      -- Something follows the bracket, or else the text breaks off there.
      cases hs' : skipSpace inner with
      | nil =>
        rw [hs'] at h
        exact absurd h.sound (passFault_scanItems_nil fuel)
      | cons c' inner' =>
        simp only [hs', skipSpace_append_of_cons hs'] at h ⊢
        split at h
        · rename_i heq
          cases heq
          rfl
        · have hinner := hitems _ h.sound
          rw [List.cons_append] at hinner
          split
          · simp_all
          · simp only [hinner]
            rfl
    · rename_i heq
      cases heq
      cases hs' : skipSpace inner with
      | nil =>
        rw [hs'] at h
        exact absurd h.sound (passFault_scanMembers_nil fuel)
      | cons c' inner' =>
        simp only [hs', skipSpace_append_of_cons hs'] at h ⊢
        split at h
        · rename_i heq
          cases heq
          rfl
        · have hinner := hmembers _ h.sound
          rw [List.cons_append] at hinner
          split
          · simp_all
          · simp only [hinner]
            rfl
    · rename_i heq
      cases heq
      exact h.scanNumber_append
    · rename_i heq
      cases heq
      split at h
      · rename_i hdigit
        have hnumber : scanNumber false (c :: (inner ++ more)) = _ := h.scanNumber_append
        split
        all_goals simp_all
      · cases h.sound

include hvalue hitems in
theorem scanItems_append_succ (cs : List Char) (h : (scanItems (fuel + 1) cs).1.passFault = none) :
    scanItems (fuel' + 1) (cs ++ more) = withMore more (scanItems (fuel + 1) cs) := by
  cases cs with
  | nil => simp [scanItems, Items.passFault] at h
  | cons c cs =>
    have hhead := hvalue (c :: cs)
    rcases hscan : scanValue fuel (c :: cs) with ⟨head, rest⟩
    rw [hscan] at hhead
    simp only [scanItems, hscan, List.cons_append] at h hhead ⊢
    split at h
    · rename_i last hs
      rw [Items.passFault, Option.or_eq_none_iff] at h
      rw [hhead (whole_of_skipSpace h.1 hs)]
      simp only [withMore, skipSpace_append_of_cons hs]
    · rename_i next hs
      split at h
      · simp [Items.passFault] at h
      · simp [Items.passFault] at h
      · rename_i hnil hclose
        obtain ⟨c', next', hn⟩ := List.exists_cons_of_ne_nil hnil
        rw [Items.passFault, Option.or_eq_none_iff] at h
        have htail := hitems _ h.2
        rw [hn, List.cons_append] at htail
        rw [hhead (whole_of_skipSpace h.1 hs)]
        simp only [withMore, skipSpace_append_of_cons hs, skipSpace_append_of_cons hn, hn]
        split
        · simp_all
        · simp_all
        · simp only [htail]
          rfl
    · simp [Items.passFault] at h
    · simp [Items.passFault] at h

include hvalue hmembers in
theorem scanMembers_append_succ (cs : List Char)
    (h : (scanMembers (fuel + 1) cs).1.passFault = none) :
    scanMembers (fuel' + 1) (cs ++ more) = withMore more (scanMembers (fuel + 1) cs) := by
  unfold scanMembers at h ⊢
  split at h
  · simp [Members.passFault] at h
  · split at h
    · simp [Members.passFault] at h
    · rename_i key behind hkey
      simp only [List.cons_append, scanString_append hkey]
      split at h
      · simp [Members.passFault, Node.passFault] at h
      · rename_i start hcolon
        simp only [skipSpace_append_of_cons hcolon]
        have hmember := hvalue start
        rcases hscan : scanValue fuel start with ⟨value, rest⟩
        rw [hscan] at hmember
        simp only [hscan] at h ⊢
        split at h
        · rename_i last hs
          rw [Members.passFault, Option.or_eq_none_iff] at h
          rw [hmember (whole_of_skipSpace h.1 hs)]
          simp only [withMore, skipSpace_append_of_cons hs]
        · rename_i next hs
          split at h
          · simp [Members.passFault] at h
          · rename_i hnil
            rw [Members.passFault, Option.or_eq_none_iff] at h
            rw [hmember (whole_of_skipSpace h.1 hs)]
            simp only [withMore, skipSpace_append_of_cons hs, skipSpace_append_of_ne hnil]
            split
            · simp_all
            · simp only [hmembers _ h.2]
              rfl
        · simp [Members.passFault] at h
        · simp [Members.passFault] at h
      · simp [Members.passFault, Node.passFault] at h
  · simp [Members.passFault] at h

end

/-- More text behind a whole value, and more fuel, change nothing but the rest. -/
theorem scan_append {fuel fuel' : Nat} (hle : fuel ≤ fuel') (more : List Char) :
    (∀ cs, Whole (scanValue fuel cs) →
        scanValue fuel' (cs ++ more) = withMore more (scanValue fuel cs)) ∧
      (∀ cs, (scanItems fuel cs).1.passFault = none →
        scanItems fuel' (cs ++ more) = withMore more (scanItems fuel cs)) ∧
      (∀ cs, (scanMembers fuel cs).1.passFault = none →
        scanMembers fuel' (cs ++ more) = withMore more (scanMembers fuel cs)) := by
  -- Without fuel there is a flaw, and the three scanners call each other with one step less.
  induction fuel generalizing fuel' with
  | zero =>
    refine ⟨fun cs h => ?_, fun cs h => ?_, fun cs h => ?_⟩
    · cases h.sound
    · cases h
    · cases h
  | succ fuel ih =>
    obtain ⟨fuel', rfl⟩ : ∃ f, fuel' = f + 1 := ⟨fuel' - 1, by omega⟩
    obtain ⟨hvalue, hitems, hmembers⟩ := ih (Nat.le_of_succ_le_succ hle)
    exact ⟨scanValue_append_succ hitems hmembers, scanItems_append_succ hvalue hitems,
      scanMembers_append_succ hvalue hmembers⟩

/-! ## Readers that meet every flaw -/

/-- What the reader accepts from a text is without a flaw. -/
def Thorough {α : Type} (read : Reader α) : Prop :=
  ∀ node a, read .text node = .ok a → node.passFault = none

section

variable {α : Type} {αs : List Type}

theorem thorough_text : Thorough text := by
  intro node a h
  cases node with
  | string s => rfl
  | _ => simp [text, Node.unwanted, refuse] at h

theorem thorough_path : Thorough path := by
  intro node a h
  cases node with
  | string s => rfl
  | _ => simp [path, Node.unwanted, refuse] at h

theorem thorough_word : Thorough word := by
  intro node a h
  obtain ⟨n, hn, _⟩ := map_eq_ok h
  cases node with
  | number n => rfl
  | _ => simp [size, Node.unwanted, refuse] at hn

theorem Thorough.nullable {read : Reader α} (h : Thorough read) : Thorough (nullable read) := by
  intro node a hread
  cases node with
  | null => rfl
  | _ =>
    obtain ⟨b, hb, _⟩ := map_eq_ok hread
    exact h _ b hb

theorem Thorough.list {read : Reader α} (h : Thorough read) : Thorough (list read) := by
  intro node as hread
  cases node with
  | array items =>
    change items.readAll (read .text) = .ok as at hread
    change items.passFault = none
    fun_induction Items.readAll (read .text) items generalizing as with
    | case1 => rfl
    | case2 f => simp at hread
    | case3 head tail ih =>
      obtain ⟨a, ha, hread⟩ := bind_eq_ok hread
      obtain ⟨bs, hbs, _⟩ := bind_eq_ok hread
      rw [Items.passFault, h head a ha, ih bs hbs]
      rfl
  | _ => simp [Json.list, Node.unwanted, refuse] at hread

namespace Fields

/-- Every field has a thorough reader. -/
def Thorough {αs : List Type} : Fields αs → Prop
  | .nil => True
  | .cons field rest => Json.Thorough field.read ∧ rest.Thorough

variable {fields : Fields αs} {aside : Node → Option Fault}

theorem Thorough.put (h : fields.Thorough) {key : String} {value : Node} {slots slots' : Slots αs}
    (hput : fields.put .text key value slots = .ok (some slots')) : value.passFault = none := by
  induction fields with
  | nil => simp [Fields.put] at hput
  | cons field rest ih =>
    obtain ⟨slot, slots⟩ := slots
    rw [put_cons] at hput
    split at hput
    · cases slot with
      | some a => simp [refuse] at hput
      | none =>
        obtain ⟨a, hread, _⟩ := map_eq_ok hput
        exact h.1 value a hread
    · obtain ⟨more, hrest, hput⟩ := map_eq_ok hput
      obtain ⟨more, rfl, _⟩ := Option.map_eq_some_iff.mp hput
      exact ih h.2 hrest

theorem Thorough.take (h : fields.Thorough) (haside : ∀ node, aside node = none →
    node.passFault = none) {key : String} {value : Node} {slots slots' : Slots αs}
    (htake : fields.take .text aside slots key value = .ok slots') : value.passFault = none := by
  obtain ⟨more, hput, htake⟩ := bind_eq_ok htake
  cases more with
  | some more => exact h.put hput
  | none =>
    obtain ⟨_, hfault, _⟩ := map_eq_ok htake
    apply haside
    cases hvalue : aside value with
    | none => rfl
    | some f => simp [hvalue, orFault] at hfault

theorem Thorough.fold (h : fields.Thorough) (haside : ∀ node, aside node = none →
    node.passFault = none) {members : Members} {slots slots' : Slots αs}
    (hfold : members.fold (fields.take .text aside) slots = .ok slots') :
    members.passFault = none := by
  fun_induction Members.fold (fields.take .text aside) members slots with
  | case1 => rfl
  | case2 => simp at hfold
  | case3 => simp at hfold
  | case4 => simp at hfold
  | case5 key value tail slots ih =>
    obtain ⟨met, htake, hfold⟩ := bind_eq_ok hfold
    rw [Members.passFault, h.take haside htake, ih met hfold]
    rfl

theorem Thorough.ofMembers (h : fields.Thorough) (haside : ∀ node, aside node = none →
    node.passFault = none) {members : Members} {row : Row αs}
    (hread : fields.ofMembers .text aside members = .ok row) : members.passFault = none := by
  rw [ofMembers_eq] at hread
  obtain ⟨slots, hfold, _⟩ := bind_eq_ok hread
  exact h.fold haside hfold

theorem Thorough.ofItems (h : fields.Thorough) {wanted : Wanted} {seen : Nat} {items left : Items}
    {row : Row αs} (hread : fields.ofItems .text wanted seen items = .ok (row, left))
    (hleft : left.passFault = none) : items.passFault = none := by
  induction fields generalizing seen items left with
  | nil =>
    cases hread
    exact hleft
  | cons field rest ih =>
    cases items with
    | closed => rfl
    | flaw f => simp [Fields.ofItems] at hread
    | cons head tail =>
      obtain ⟨a, ha, hread⟩ := bind_eq_ok hread
      obtain ⟨⟨more, left'⟩, hrest, hread⟩ := bind_eq_ok hread
      cases hread
      rw [Items.passFault, h.1 head a ha, ih h.2 hrest hleft]
      rfl

end Fields

theorem thorough_record {name : String} {fields : Fields αs} {build : Row αs → α}
    (h : fields.Thorough) : Thorough (record name fields build) := by
  intro node a hread
  cases node with
  | object members =>
    obtain ⟨row, hrow, _⟩ := map_eq_ok hread
    exact h.ofMembers (fun _ hnode => hnode) hrow
  | array items =>
    obtain ⟨⟨row, left⟩, hrow, hread⟩ := bind_eq_ok hread
    obtain ⟨_, hended, _⟩ := bind_eq_ok hread
    refine h.ofItems hrow ?_
    cases left with
    | closed => rfl
    | _ => simp [Items.ended] at hended
  | _ => simp [record, Node.unwanted, refuse] at hread

end

/-! ## More text behind an accepted text -/

theorem skipSpace_eq_nil_iff (cs : List Char) :
    skipSpace cs = [] ↔ ∀ c ∈ cs, isSpace c = true :=
  List.dropWhile_eq_nil_iff

theorem skipSpace_append_of_nil {cs : List Char} (h : skipSpace cs = []) (more : List Char) :
    skipSpace (cs ++ more) = skipSpace more :=
  skipSpace_append ((skipSpace_eq_nil_iff cs).mp h) more

/-- A text that a reader accepts is accepted with spaces behind it, and with nothing else. -/
theorem parse_append {α : Type} {read : Reader α} (hread : Thorough read)
    (hbracketed : ∀ node a, read .text node = .ok a → node.bracketed = true) {text : String} {a : α}
    (h : parse read text = .ok a) (more : String) :
    parse read (text ++ more) =
      if (skipSpace more.toList).isEmpty then .ok a else .error (.fault .malformed) := by
  obtain ⟨b, hb, h⟩ := bind_eq_ok h
  split at h
  · simp at h
  · rename_i htrailing
    cases h
    have hwhole : Whole (scanValue (2 * text.toList.length + 2) text.toList) :=
      ⟨hread _ a hb, .inl (hbracketed _ a hb)⟩
    have hfuel : 2 * text.toList.length + 2 ≤ 2 * (text.toList ++ more.toList).length + 2 := by
      rw [List.length_append]
      omega
    have hscan := (scan_append hfuel more.toList).1 text.toList hwhole
    have hrest : skipSpace (scanValue (2 * text.toList.length + 2) text.toList).2 = [] := by
      simpa [Document.scan] using htrailing
    have hroot : (Document.scan (text ++ more)).root = (Document.scan text).root := by
      simp only [Document.scan, String.toList_append, hscan, withMore]
    have hbehind : (Document.scan (text ++ more)).trailing = !(skipSpace more.toList).isEmpty := by
      simp only [Document.scan, String.toList_append, hscan, withMore,
        skipSpace_append_of_nil hrest]
    rw [parse, hroot, hb]
    simp only [bind, Except.bind, hbehind]
    cases (skipSpace more.toList).isEmpty <;> rfl

end Json

open Json

/-! ## The law -/

theorem Expr.thorough_read : Thorough Expr.read := by
  intro node e h
  cases node with
  | object members =>
    rw [Expr.read] at h
    obtain ⟨⟨offset, _⟩, hfields, _⟩ := bind_eq_ok h
    have hthorough : Expr.fields.Thorough := ⟨thorough_word, trivial⟩
    exact hthorough.ofMembers Node.passFault_of_takeFault hfields
  | _ => simp [Expr.read, Node.unwanted, refuse] at h

theorem Decl.thorough_read : Thorough Decl.read := by
  intro node d h
  cases node with
  | object members =>
    obtain ⟨⟨id, parameters, body, offset, _⟩, hfields, _⟩ := bind_eq_ok h
    have hparameter : Thorough Parameter.read :=
      thorough_record ⟨thorough_text, thorough_text.nullable, trivial⟩
    have hthorough : Decl.fields.Thorough := ⟨thorough_text, hparameter.list,
      Expr.thorough_read.nullable, thorough_word, trivial⟩
    exact hthorough.ofMembers Node.passFault_of_takeFault hfields
  | _ => simp [Decl.read, Node.unwanted, refuse] at h

theorem SourceFile.thorough_read : Thorough SourceFile.read :=
  thorough_record
    ⟨thorough_path, thorough_word.list, Decl.thorough_read.list, trivial⟩

namespace Module

theorem thorough_read : Thorough Module.read :=
  thorough_record ⟨thorough_text, SourceFile.thorough_read.list, trivial⟩

theorem bracketed_of_read (node : Node) (m : Module) (h : Module.read .text node = .ok m) :
    node.bracketed = true := by
  cases node with
  | object members => rfl
  | array items => rfl
  | _ => simp [Module.read, record, Node.unwanted, refuse] at h

/-- A text that describes a module says by itself where it ends. With spaces behind it, it describes
the same module; with anything else behind it, it is refused. So of two texts that describe modules,
one is the start of the other only if just spaces come behind it, and then the modules are the
same: no module that is cut off passes for a smaller one. -/
theorem an_accepted_text_says_where_it_ends (path text : String) (m : Module)
    (h : parse path text = .ok m) :
    (∀ more : String, (∀ c ∈ more.toList, c ∈ [' ', '\t', '\r', '\n']) →
        parse path (text ++ more) = .ok m) ∧
      (∀ more : String, ¬ (∀ c ∈ more.toList, c ∈ [' ', '\t', '\r', '\n']) →
        parse path (text ++ more) = .error (.badModule path (.fault .malformed))) ∧
      (∀ (longer : String) (m' : Module), parse path longer = .ok m' →
        text.toList <+: longer.toList → m' = m ∧
          ∃ more, longer = text ++ more ∧ ∀ c ∈ more.toList, c ∈ [' ', '\t', '\r', '\n']) := by
  have hread := (parse_eq_ok_iff path text m).mp h
  have hspaces : ∀ more : String, (skipSpace more.toList).isEmpty = true ↔
      ∀ c ∈ more.toList, c ∈ [' ', '\t', '\r', '\n'] := by
    intro more
    rw [List.isEmpty_iff, skipSpace_eq_nil_iff]
    simp only [isSpace, Bool.or_eq_true, decide_eq_true_eq, List.mem_cons, List.not_mem_nil,
      or_false]
    grind
  have hmore : ∀ more : String, parse path (text ++ more) =
      if (skipSpace more.toList).isEmpty then .ok m
      else .error (.badModule path (.fault .malformed)) := by
    intro more
    rw [parse, parse_append thorough_read bracketed_of_read hread]
    cases (skipSpace more.toList).isEmpty <;> rfl
  refine ⟨?_, ?_, ?_⟩
  · intro more hs
    rw [hmore, if_pos ((hspaces more).mpr hs)]
  · intro more hs
    rw [hmore, if_neg fun hempty => hs ((hspaces more).mp hempty)]
  · rintro longer m' h' ⟨rest, hrest⟩
    have hlonger : longer = text ++ String.ofList rest := by
      rw [← String.toList_inj, String.toList_append, String.toList_ofList, hrest]
    rw [hlonger, hmore] at h'
    split at h'
    · rename_i hempty
      cases h'
      exact ⟨rfl, _, hlonger, (hspaces _).mp hempty⟩
    · simp at h'

/-- A description whose file is an array of its fields, with a member that nobody reads. -/
def shortForm : Json :=
  .object [("files", .array [.array [.string "a.kt", .array [.int 0, .int 7]]]),
    ("note", .string "]"), ("name", .string "m")]

theorem a_short_text_says_where_it_ends :
    parse "m.json" shortForm.compact = .ok ⟨"m", [⟨"a.kt", [0, 7], []⟩]⟩ ∧
      parse "m.json" (shortForm.compact ++ "\r\n") = .ok ⟨"m", [⟨"a.kt", [0, 7], []⟩]⟩ ∧
      parse "m.json" (shortForm.compact ++ " []") =
        .error (.badModule "m.json" (.fault .malformed)) := by
  have hplain : shortForm.Plain := by simp [shortForm]
  have h : parse "m.json" shortForm.compact = .ok ⟨"m", [⟨"a.kt", [0, 7], []⟩]⟩ := by
    rw [parse_eq_ok_iff, parse_compact _ hplain]
    rfl
  obtain ⟨hspaces, hother, _⟩ := an_accepted_text_says_where_it_ends "m.json" _ _ h
  exact ⟨h, hspaces "\r\n" (by simp), hother " []" (by simp)⟩

end Module

end Purity
