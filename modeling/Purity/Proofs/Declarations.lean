-- The declarations of a module. Each stands under the key that says which file it is in and which
-- place it has there, and just the places that there are have a key.
import Mathlib.Data.List.Nodup
import Purity.Module

namespace Purity.Module

/-! ## Keys -/

/-- The keys go up, by file first and then by the place in the file. -/
theorem pairwise_declarations (m : Module) :
    m.declarations.Pairwise fun a b =>
      a.1.file < b.1.file ∨ a.1.file = b.1.file ∧ a.1.index < b.1.index := by
  have hidx : ∀ {α : Type} (l : List α), l.zipIdx.Pairwise fun a b => a.2 < b.2 := by
    intro α l
    rw [← List.pairwise_map (f := Prod.snd) (R := (· < ·)), List.zipIdx_map_snd]
    exact List.pairwise_lt_range'
  rw [declarations, List.pairwise_flatMap]
  constructor
  · intro file _
    refine List.pairwise_map.mpr ((hidx file.1.decls).imp ?_)
    intro a b hab
    exact .inr ⟨rfl, hab⟩
  · refine (hidx m.files).imp ?_
    intro f g hfg a ha b hb
    obtain ⟨_, _, rfl⟩ := List.mem_map.mp ha
    obtain ⟨_, _, rfl⟩ := List.mem_map.mp hb
    exact .inl hfg

theorem nodup_keys (m : Module) : (m.declarations.map Prod.fst).Nodup := by
  refine List.pairwise_map.mpr (m.pairwise_declarations.imp ?_)
  intro a b hab heq
  rw [heq] at hab
  omega

/-- A declaration under a key is the function at that place. -/
theorem mem_declarations (m : Module) (key : Key) (d : SourceFile × Decl) :
    (key, d) ∈ m.declarations ↔
      ∃ (hi : key.file < m.files.length) (hj : key.index < m.files[key.file].decls.length),
        d = (m.files[key.file], m.files[key.file].decls[key.index]) := by
  obtain ⟨i, j⟩ := key
  obtain ⟨file, decl⟩ := d
  simp only [declarations, List.mem_flatMap, List.mem_map]
  constructor
  · rintro ⟨⟨file', i'⟩, hfile, ⟨decl', j'⟩, hdecl, heq⟩
    cases heq
    obtain ⟨hi, rfl⟩ := List.getElem?_eq_some_iff.mp (List.mk_mem_zipIdx_iff_getElem?.mp hfile)
    obtain ⟨hj, rfl⟩ := List.getElem?_eq_some_iff.mp (List.mk_mem_zipIdx_iff_getElem?.mp hdecl)
    exact ⟨hi, hj, rfl⟩
  · rintro ⟨hi, hj, heq⟩
    cases heq
    refine ⟨(m.files[i], i), ?_, (m.files[i].decls[j], j), ?_, rfl⟩
    · exact List.mk_mem_zipIdx_iff_getElem?.mpr (List.getElem?_eq_getElem hi)
    · exact List.mk_mem_zipIdx_iff_getElem?.mpr (List.getElem?_eq_getElem hj)

/-! ## Without the keys -/

/-- Without their keys, the declarations are the functions. -/
theorem map_snd_declarations (m : Module) : m.declarations.map Prod.snd = m.functions := by
  have hdecls : ∀ (file : SourceFile) (i : Nat),
      (file.decls.zipIdx.map fun p => ((⟨i, p.2⟩ : Key), file, p.1)).map Prod.snd =
        file.decls.map fun decl => (file, decl) := by
    intro file i
    conv_rhs => rw [← List.zipIdx_map_fst 0 file.decls]
    rw [List.map_map, List.map_map]
    rfl
  unfold declarations functions
  conv_rhs => rw [← List.zipIdx_map_fst 0 m.files]
  rw [List.map_flatMap, List.flatMap_map]
  exact List.flatMap_congr fun p _ => hdecls p.1 p.2

theorem length_functions (m : Module) : m.functions.length = m.functionCount := by
  unfold functions functionCount
  induction m.files with
  | nil => rfl
  | cons file files ih =>
    rw [List.flatMap_cons, List.length_append, List.length_map, ih, List.foldr_cons]

/-! ## The law -/

/-- Every function of a module is declared once, under a key that finds it again. The keys go up by
file and then by index, so no two are the same. A key is there just when it names a file and a place
in that file, and what stands under it is that file and the function at that place. Without the keys
the declarations are the functions, and they are as many as the module counts. -/
theorem every_declaration_is_found_under_its_key (m : Module) :
    (m.declarations.map Prod.fst).Pairwise (fun a b =>
        Prod.Lex (· < ·) (· < ·) (a.file, a.index) (b.file, b.index)) ∧
      (m.declarations.map Prod.fst).Nodup ∧
      (∀ i j, ⟨i, j⟩ ∈ m.declarations.map Prod.fst ↔
        ∃ hi : i < m.files.length, j < m.files[i].decls.length) ∧
      (∀ i j d, (⟨i, j⟩, d) ∈ m.declarations ↔
        ∃ (hi : i < m.files.length) (hj : j < m.files[i].decls.length),
          d = (m.files[i], m.files[i].decls[j])) ∧
      (∀ key d, m.declarations.lookup key = some d ↔ (key, d) ∈ m.declarations) ∧
      m.declarations.map Prod.snd = m.functions ∧
      m.declarations.length = m.functionCount := by
  refine ⟨?_, m.nodup_keys, ?_, fun i j d => m.mem_declarations ⟨i, j⟩ d, ?_,
    m.map_snd_declarations, ?_⟩
  · refine List.pairwise_map.mpr (m.pairwise_declarations.imp ?_)
    intro a b hab
    exact Prod.lex_def.mpr hab
  · intro i j
    rw [List.mem_map]
    constructor
    · rintro ⟨⟨key, d⟩, hmem, rfl⟩
      obtain ⟨hi, hj, _⟩ := (m.mem_declarations _ d).mp hmem
      exact ⟨hi, hj⟩
    · rintro ⟨hi, hj⟩
      exact ⟨(⟨i, j⟩, _), (m.mem_declarations ⟨i, j⟩ _).mpr ⟨hi, hj, rfl⟩, rfl⟩
  · intro key d
    exact ⟨Entries.mem_of_lookup, Entries.lookup_of_mem m.nodup_keys⟩
  · rw [← m.length_functions, ← m.map_snd_declarations, List.length_map]

end Purity.Module
