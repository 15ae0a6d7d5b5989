-- Lists of keys and values, in the order of the keys.

namespace Purity.Entries

/-! ## Looking up -/

section

variable {κ α : Type} [BEq κ] [LawfulBEq κ] {entries : List (κ × α)} {key : κ} {value : α}

/-- Where no key stands twice, each finds its own value. -/
theorem lookup_of_mem (hkeys : (entries.map Prod.fst).Nodup) (h : (key, value) ∈ entries) :
    entries.lookup key = some value := by
  obtain ⟨before, after, rfl⟩ := List.append_of_mem h
  refine List.lookup_eq_some_iff.mpr ⟨before, after, rfl, ?_⟩
  intro e he
  rw [List.map_append, List.map_cons, List.nodup_append] at hkeys
  have hne := hkeys.2.2 e.1 (List.mem_map_of_mem he) key List.mem_cons_self
  exact bne_iff_ne.mpr (Ne.symm hne)

theorem mem_of_lookup (h : entries.lookup key = some value) : (key, value) ∈ entries := by
  obtain ⟨before, after, rfl, _⟩ := List.lookup_eq_some_iff.mp h
  simp

end

/-! ## Putting in -/

/-- Puts a value under a key of an ordered list, in place of one that is there. -/
def insert {α : Type} (key : String) (value : α) :
    List (String × α) → List (String × α)
  | [] => [(key, value)]
  | (k, v) :: entries =>
    if key < k then (key, value) :: (k, v) :: entries
    else if key = k then (key, value) :: entries
    else (k, v) :: insert key value entries

theorem mem_insert {α : Type} {key : String} {value : α} {e : String × α}
    {entries : List (String × α)} (h : e ∈ insert key value entries) :
    e = (key, value) ∨ e ∈ entries := by
  induction entries with
  | nil => simpa [insert] using h
  | cons a entries ih =>
    simp only [insert] at h
    split at h
    · simpa using h
    · split at h
      · rcases List.mem_cons.mp h with h | h
        · exact .inl h
        · exact .inr (List.mem_cons_of_mem _ h)
      · rcases List.mem_cons.mp h with h | h
        · exact .inr (by simp [h])
        · rcases ih h with h | h
          · exact .inl h
          · exact .inr (List.mem_cons_of_mem _ h)

theorem pairwise_insert {α : Type} (key : String) (value : α)
    (entries : List (String × α)) (h : entries.Pairwise fun a b => a.1 < b.1) :
    (insert key value entries).Pairwise fun a b => a.1 < b.1 := by
  induction entries with
  | nil => simp [insert]
  | cons a entries ih =>
    rw [List.pairwise_cons] at h
    simp only [insert]
    split
    · rename_i hlt
      refine List.pairwise_cons.mpr ⟨?_, List.pairwise_cons.mpr h⟩
      intro b hb
      rcases List.mem_cons.mp hb with hb | hb
      · exact hb ▸ hlt
      · exact String.lt_trans hlt (h.1 b hb)
    · split
      · rename_i heq
        exact List.pairwise_cons.mpr ⟨fun b hb => heq ▸ h.1 b hb, h.2⟩
      · rename_i hnlt hne
        refine List.pairwise_cons.mpr ⟨?_, ih h.2⟩
        intro b hb
        rcases mem_insert hb with hb | hb
        · rw [hb]
          have hle : a.1 ≤ key := String.not_lt.mp hnlt
          exact Classical.byContradiction fun hn =>
            hne (String.le_antisymm (String.not_lt.mp hn) hle)
        · exact h.1 b hb

section

variable {α : Type} {key k : String} {value v : α} {entries : List (String × α)}

theorem insert_cons_of_lt (h : key < k) :
    insert key value ((k, v) :: entries) = (key, value) :: (k, v) :: entries := if_pos h

theorem insert_cons_self : insert key value ((key, v) :: entries) = (key, value) :: entries := by
  rw [insert, if_neg (String.lt_irrefl key), if_pos rfl]

theorem insert_cons_of_gt (h : k < key) :
    insert key value ((k, v) :: entries) = (k, v) :: insert key value entries := by
  have hlt : ¬ key < k := fun h' => String.lt_irrefl k (String.lt_trans h h')
  have hne : key ≠ k := fun h' => String.lt_irrefl k (h' ▸ h)
  rw [insert, if_neg hlt, if_neg hne]

end

theorem trichotomy (a b : String) : a < b ∨ a = b ∨ b < a := by
  by_cases hab : a < b
  · exact .inl hab
  · by_cases hba : b < a
    · exact .inr (.inr hba)
    · exact .inr (.inl (String.le_antisymm (String.not_lt.mp hba) (String.not_lt.mp hab)))

theorem insert_comm_of_lt {α : Type} {a b : String} (hab : a < b) (x y : α)
    (entries : List (String × α)) :
    insert a x (insert b y entries) = insert b y (insert a x entries) := by
  induction entries with
  | nil => rw [insert, insert, insert_cons_of_lt hab, insert_cons_of_gt hab, insert]
  | cons e entries ih =>
    obtain ⟨k, v⟩ := e
    -- The smaller key goes in before `k`, in its place, or behind it.
    rcases trichotomy a k with hak | rfl | hka
    · rw [insert_cons_of_lt hak, insert_cons_of_gt hab]
      rcases trichotomy b k with hbk | rfl | hkb
      · rw [insert_cons_of_lt hbk, insert_cons_of_lt hab]
      · rw [insert_cons_self, insert_cons_of_lt hab]
      · rw [insert_cons_of_gt hkb, insert_cons_of_lt hak]
    · rw [insert_cons_self, insert_cons_of_gt hab, insert_cons_of_gt hab, insert_cons_self]
    · have hkb := String.lt_trans hka hab
      rw [insert_cons_of_gt hka, insert_cons_of_gt hkb, insert_cons_of_gt hkb,
        insert_cons_of_gt hka, ih]

/-- Values under different keys may be put in in either order. -/
theorem insert_comm {α : Type} {a b : String} (hne : a ≠ b) (x y : α)
    (entries : List (String × α)) :
    insert a x (insert b y entries) = insert b y (insert a x entries) := by
  rcases trichotomy a b with hab | hab | hba
  · exact insert_comm_of_lt hab x y entries
  · exact absurd hab hne
  · exact (insert_comm_of_lt hba y x entries).symm

end Purity.Entries
