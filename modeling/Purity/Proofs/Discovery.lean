-- Which file has the settings of a directory. The search goes up from the directory and stops at the
-- first file that it can read, whether it understands the text or not. A file that is there and cannot be
-- read does not stop it, so that a file further up decides.
import Mathlib.Data.List.Basic
import Purity.Config.File

namespace Purity

namespace Disk

variable {d : Disk} {cwd way : List String} {dir name text : String}

/-! ## Files in directories -/

/-- Where the steps of a path lead, however long the path is. -/
def walk (d : Disk) (cwd : List String) (path : String) : Except DiskError (List String) :=
  (pieces path).foldlM d.step (origin cwd path)

/-- The text of the file of that name in a directory, if there is such a file; it need not be text. -/
def fileIn (d : Disk) (cwd : List String) (name dir : String) : Option (Option String) :=
  match d.walk cwd dir with
  | .error _ => none
  | .ok way =>
    match d.get? way, d.get? (way ++ [name]) with
    | some .folder, some (.file content) => some content
    | _, _ => none

/-- A name that a file can have: no step up or on the spot, and no path. -/
structure IsName (name : String) : Prop where
  piece : '/' ∉ name.toList
  moves : name ∉ ["", ".", ".."]
  short : name.utf8ByteSize ≤ 255

theorem IsName.step_eq (h : IsName name) (hway : d.get? way = some .folder) :
    d.step way name = .ok (way ++ [name]) := by
  have hstep := h.moves
  simp only [List.mem_cons, List.not_mem_nil, or_false, not_or] at hstep
  simp [step, hway, hstep, Nat.not_lt.mpr h.short]

/-- A step on the spot only asks for a folder, which the next step does too. -/
theorem step_here (d : Disk) (way : List String) (name : String) :
    (d.step way "" >>= fun way => d.step way name) = d.step way name := by
  cases hway : d.get? way with
  | none => simp [step, hway, bind, Except.bind]
  | some e =>
    cases e with
    | file content => simp [step, hway, bind, Except.bind]
    | folder =>
      have hhere : d.step way "" = .ok way := by simp [step, hway]
      rw [hhere]
      rfl

theorem pieces_of_slash {path : String} {front cs : List Char}
    (hpath : path.toList = front ++ '/' :: cs) (hcs : '/' ∉ cs) :
    pieces path = (front.splitOn '/').map String.ofList ++ [String.ofList cs] := by
  unfold pieces
  rw [hpath, List.splitOn_append_cons_self, List.splitOn_eq_singleton hcs, List.map_append]
  rfl

theorem walk_of_pieces {path last : String} {front : List String}
    (h : pieces path = front ++ [last]) :
    d.walk cwd path = front.foldlM d.step (origin cwd path) >>= fun way => d.step way last := by
  unfold walk
  rw [h, List.foldlM_append]
  simp

theorem origin_join (hname : IsName name) : origin cwd (Path.join dir name) = origin cwd dir := by
  have hhead : name.toList.head? ≠ some '/' := fun h => hname.piece (List.mem_of_head? h)
  unfold Path.join origin
  rw [if_neg hhead]
  by_cases hempty : dir = ""
  · subst hempty
    simp [hhead]
  · have hcons : dir.toList ≠ [] := by simpa using hempty
    obtain ⟨c, cs, hdir⟩ := List.exists_cons_of_ne_nil hcons
    split <;> simp [String.toList_append, hdir]

/-- The file of a name in a directory is reached by a step from there. -/
theorem walk_join (hname : IsName name) :
    d.walk cwd (Path.join dir name) = d.walk cwd dir >>= fun way => d.step way name := by
  have hhead : name.toList.head? ≠ some '/' := fun h => hname.piece (List.mem_of_head? h)
  -- A directory whose path is empty or ends with a slash ends with an empty piece, in place of which the
  -- name stands.
  have hplace : ∀ front, pieces dir = front ++ [""] → pieces (Path.join dir name) = front ++ [name] →
      d.walk cwd (Path.join dir name) = d.walk cwd dir >>= fun way => d.step way name := by
    intro front hdir hjoin
    rw [walk_of_pieces hdir, walk_of_pieces hjoin, origin_join hname, bind_assoc]
    simp only [step_here]
  by_cases hempty : dir = ""
  · subst hempty
    apply hplace []
    · rfl
    · simp [Path.join, hhead, pieces, List.splitOn_eq_singleton hname.piece]
  · by_cases hlast : dir.toList.getLast? = some '/'
    · obtain ⟨front, hfront⟩ := List.getLast?_eq_some_iff.mp hlast
      have hjoin : (Path.join dir name).toList = front ++ '/' :: name.toList := by
        simp [Path.join, hhead, String.toList_append, hfront]
      apply hplace ((front.splitOn '/').map String.ofList)
      · exact pieces_of_slash hfront (by simp)
      · rw [pieces_of_slash hjoin hname.piece, String.ofList_toList]
    · have hjoin : (Path.join dir name).toList = dir.toList ++ '/' :: name.toList := by
        simp [Path.join, hhead, hlast, hempty, String.toList_append]
      have hpieces : pieces (Path.join dir name) = pieces dir ++ [name] := by
        rw [pieces_of_slash hjoin hname.piece, String.ofList_toList]
        rfl
      rw [walk_of_pieces hpieces, origin_join hname]
      rfl

/-- A text can be read from the file of a name in a directory just when it is there, and the path to
it is one that can be looked up. -/
theorem read_join_eq_ok (hname : IsName name) : d.read cwd (Path.join dir name) = .ok text ↔
    isPath (Path.join dir name) = true ∧ d.fileIn cwd name dir = some (some text) := by
  by_cases hpath : isPath (Path.join dir name) = true
  · have hresolve : d.resolve cwd (Path.join dir name) =
        d.walk cwd dir >>= fun way => d.step way name := by
      rw [← walk_join hname, resolve, if_pos hpath]
      rfl
    unfold read fileIn
    rw [hresolve]
    cases d.walk cwd dir with
    | error e => simp [bind, Except.bind]
    | ok way =>
      cases hway : d.get? way with
      | none => simp [step, hway, bind, Except.bind]
      | some e =>
        cases e with
        | file content => simp [step, hway, bind, Except.bind]
        | folder =>
          simp only [bind, Except.bind, hname.step_eq hway]
          rcases d.get? (way ++ [name]) with _ | _ | _ | _ <;> simp [hpath, hway]
  · simp [read, resolve, hpath, bind, Except.bind]

end Disk

theorem Path.length_ancestors_le (count : Nat) (path : String) :
    (ancestors count path).length ≤ count := by
  induction count generalizing path with
  | zero => exact Nat.le_refl 0
  | succ count ih =>
    unfold ancestors
    split
    · simp
    · rename_i above _
      exact Nat.succ_le_succ (ih above)

namespace Config

variable {d : Disk} {cwd paths : List String} {path text : String}

/-! ## The search -/

theorem isName_fileName : Disk.IsName fileName := ⟨by decide, by decide, by decide⟩

theorem search_of_read (h : d.read cwd path = .ok text) :
    (search d cwd (path :: paths)).1 = match (Toml.parse text).bind ofDocument? with
      | some c => c.normalize
      | none => {} := by
  simp only [search, tryLoad, h, parse]
  cases (Toml.parse text).bind ofDocument? with
  | none => rfl
  | some c => rfl

theorem search_of_not_read (h : ∀ text, d.read cwd path ≠ .ok text) :
    (search d cwd (path :: paths)).1 = (search d cwd paths).1 := by
  have hnone : (tryLoad d cwd path).1 = none := by
    unfold tryLoad
    split
    · rfl
    · rfl
    · exact absurd ‹_› (h _)
  rw [search]
  split
  · rename_i heq
    rw [heq] at hnone
    cases hnone
  · rfl

/-- The files that the search passes over have no part in what it finds. -/
theorem search_append {nearer : List String} (h : ∀ path ∈ nearer, ∀ text, d.read cwd path ≠ .ok text) :
    (search d cwd (nearer ++ paths)).1 = (search d cwd paths).1 := by
  induction nearer with
  | nil => rfl
  | cons path nearer ih =>
    rw [List.cons_append, search_of_not_read (h path List.mem_cons_self)]
    exact ih fun path hpath => h path (List.mem_cons_of_mem _ hpath)

/-- The file with settings in a directory. -/
def fileOf (dir : String) : String := Path.join dir fileName

theorem not_read_of_fileIn {dir : String} (h : d.fileIn cwd fileName dir = none) (text : String) :
    d.read cwd (fileOf dir) ≠ .ok text := by
  intro hread
  have := (Disk.read_join_eq_ok isName_fileName).mp hread
  rw [h] at this
  cases this.2

/-- Directories without a file have no part in what the search finds. -/
theorem search_dirs {nearer above : List String}
    (h : ∀ dir ∈ nearer, d.fileIn cwd fileName dir = none) :
    (search d cwd ((nearer ++ above).map fileOf)).1 = (search d cwd (above.map fileOf)).1 := by
  rw [List.map_append]
  apply search_append
  intro path hpath
  obtain ⟨dir, hdir, rfl⟩ := List.mem_map.mp hpath
  exact not_read_of_fileIn (h dir hdir)

/-! ## The law -/

/-- Of a directory and those above it, ten at most, let the first be taken that has a file with
settings. If that file is a text under a path that can be looked up, it decides: the settings are
those of the text with trimmed names, or the usual ones if it cannot be understood, and nothing that
stands in any other directory makes a difference. If the file is no text, or its path is too long,
then it is passed over, and the settings are those that the search finds from the next directory on.
Without any file the settings are the usual ones. -/
theorem the_nearest_file_decides_if_it_can_be_read (d : Disk) (cwd : List String) (start : String) :
    let dirs := Path.ancestors searchDepth start
    let settings (d : Disk) := (discover d cwd start).1
    let content (d : Disk) := d.fileIn cwd fileName
    dirs.length ≤ 10 ∧
      ((∀ dir ∈ dirs, content d dir = none) → settings d = {}) ∧
      ∀ nearer dir above, dirs = nearer ++ dir :: above → (∀ other ∈ nearer, content d other = none) →
        (∀ text, content d dir = some (some text) → Disk.isPath (Path.join dir fileName) = true →
          (∀ c, (Toml.parse text).bind ofDocument? = some c → settings d = c.normalize) ∧
            ((Toml.parse text).bind ofDocument? = none → settings d = {}) ∧
            ∀ d', (∀ other ∈ nearer, content d' other = none) → content d' dir = content d dir →
              settings d' = settings d) ∧
        (content d dir = some none ∨ Disk.isPath (Path.join dir fileName) = false →
          settings d = (search d cwd (above.map fun dir => Path.join dir fileName)).1) := by
  intro dirs settings content
  have hsettings : ∀ d, settings d = (search d cwd (dirs.map fileOf)).1 := fun d => rfl
  refine ⟨Path.length_ancestors_le _ _, ?_, ?_⟩
  · intro hnone
    rw [hsettings, ← List.append_nil dirs, search_dirs hnone]
    rfl
  · intro nearer dir above hdirs hnearer
    have hfirst : ∀ d : Disk, (∀ other ∈ nearer, content d other = none) →
        settings d = (search d cwd (fileOf dir :: above.map fileOf)).1 := by
      intro d hnone
      rw [hsettings, hdirs, search_dirs hnone]
      rfl
    constructor
    · intro text htext hpath
      have hread : ∀ d : Disk, content d dir = some (some text) →
          d.read cwd (fileOf dir) = .ok text :=
        fun d h => (Disk.read_join_eq_ok isName_fileName).mpr ⟨hpath, h⟩
      have hown := (hfirst d hnearer).trans (search_of_read (hread d htext))
      refine ⟨?_, ?_, ?_⟩
      · intro c hc
        rw [hown, hc]
      · intro hbroken
        rw [hown, hbroken]
      · intro d' hnearer' hsame
        rw [htext] at hsame
        rw [hown, hfirst d' hnearer', search_of_read (hread d' hsame)]
    · intro hpassed
      rw [hfirst d hnearer]
      apply search_of_not_read
      intro text hread
      obtain ⟨hpath, htext⟩ := (Disk.read_join_eq_ok isName_fileName).mp hread
      rcases hpassed with hno | hlong
      · have hsame : some none = some (some text) := hno.symm.trans htext
        cases hsame
      · rw [hlong] at hpath
        cases hpath

/-- Settings in the folder above, and in the folder itself a file with settings of the given
content. -/
def nestedDisk (content : Option String) : Disk :=
  ⟨[([".puritycheck.toml"], .file (some "[purity]\nenabled = false\n")),
    (["sub", ".puritycheck.toml"], .file content)]⟩

theorem a_near_file_without_sense_gives_the_usual_settings :
    let d := nestedDisk (some "[purity")
    Path.ancestors searchDepth "sub" = ["sub", ""] ∧
      d.fileIn [] fileName "sub" = some (some "[purity") ∧ (discover d [] "sub").1 = {} := by
  intro d
  have hbroken : (Toml.parse "[purity").bind ofDocument? = none := by decide +kernel
  have hlaw := (the_nearest_file_decides_if_it_can_be_read d [] "sub").2.2 [] "sub" [""] rfl (by simp)
  exact ⟨rfl, rfl, (hlaw.1 _ rfl rfl).2.1 hbroken⟩

/-- A near file that is no text should give the usual settings, and gives those of the file above. -/
theorem a_near_file_without_text_lets_the_one_above_decide :
    let d := nestedDisk none
    Path.ancestors searchDepth "sub" = ["sub", ""] ∧ d.fileIn [] fileName "sub" = some none ∧
      (discover d [] "sub").1 = { enabled := false } ∧ (discover d [] "sub").1 ≠ {} := by
  decide +kernel

end Config

end Purity
