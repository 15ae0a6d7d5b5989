-- The laws of writing to a disk. A text goes to one place, where as much of it as fits is found again
-- under the same path; whatever stands at any other place stays.
import Mathlib.Data.List.Basic
import Purity.Disk

namespace Purity

/-! ## What fits -/

namespace Host

variable {room : Option Nat} {text : String}

end Host

namespace Disk

variable {d : Disk} {host : Host} {cwd way other : List String} {path text : String}

/-! ## What a change leaves alone -/

/-- Something stands at the way or behind it. The start is always there. -/
def Leads (d : Disk) (way : List String) : Prop := way = [] ∨ ∃ e ∈ d.entries, way <+: e.1

theorem leads_iff : (way.isEmpty || d.entries.any fun e => way.isPrefixOf e.1) = true ↔
    d.Leads way := by
  simp [Leads]

theorem leads_of_get? {e : Entry} (h : d.get? way = some e) : d.Leads way := by
  unfold get? at h
  split at h
  · rename_i e' hlookup
    obtain ⟨front, back, hentries, _⟩ := List.lookup_eq_some_iff.mp hlookup
    exact .inr ⟨(way, e'), by simp [hentries], List.prefix_rfl⟩
  · split at h
    · rename_i hleads
      exact leads_iff.mp hleads
    · cases h

theorem lookup_set_of_ne (e : Entry) (h : other ≠ way) :
    (d.set way e).entries.lookup other = d.entries.lookup other := by
  have hne : (other == way) = false := beq_eq_false_iff_ne.mpr h
  unfold set
  rw [List.lookup_cons, hne]
  induction d.entries with
  | nil => rfl
  | cons x xs ih =>
    obtain ⟨w, x⟩ := x
    by_cases hw : w = way
    · subst hw
      simp only [List.lookup_cons, hne, ← ih]
      simp
    · simp only [List.filter_cons, hw, ne_eq, not_false_eq_true, decide_true, if_true,
        List.lookup_cons, ← ih]

theorem prefix_dropLast_of_ne (h : other <+: way) (hne : other ≠ way) : other <+: way.dropLast := by
  rcases List.eq_nil_or_concat way with rfl | ⟨front, last, rfl⟩
  · exact h
  · rw [List.concat_eq_append] at h hne ⊢
    rw [List.dropLast_concat]
    exact (List.prefix_concat_iff.mp h).resolve_left hne

/-- The ways to an entry that is put into a folder were there before. -/
theorem leads_set_of_ne (e : Entry) (hparent : d.get? way.dropLast = some .folder)
    (hne : other ≠ way) : (d.set way e).Leads other ↔ d.Leads other := by
  constructor
  · rintro (rfl | ⟨x, hx, hprefix⟩)
    · exact .inl rfl
    · rcases List.mem_cons.mp hx with rfl | hx
      · have habove := prefix_dropLast_of_ne hprefix hne
        rcases leads_of_get? hparent with hstart | ⟨y, hy, hbelow⟩
        · rw [hstart, List.prefix_nil] at habove
          exact .inl habove
        · exact .inr ⟨y, hy, habove.trans hbelow⟩
      · exact .inr ⟨x, List.mem_of_mem_filter hx, hprefix⟩
  · rintro (rfl | ⟨x, hx, hprefix⟩)
    · exact .inl rfl
    · by_cases hway : x.1 = way
      · exact .inr ⟨(way, e), List.mem_cons_self, hway ▸ hprefix⟩
      · exact .inr ⟨x, List.mem_cons_of_mem _ (List.mem_filter.mpr ⟨hx, by simpa using hway⟩),
          hprefix⟩

theorem get?_set_self (e : Entry) : (d.set way e).get? way = some e := by
  simp [get?, set]

theorem set_set (e e' : Entry) : (d.set way e).set way e' = d.set way e' := by
  simp [set, List.filter_filter]

/-- An entry that is put into a folder changes nothing else. -/
theorem get?_set_of_ne (e : Entry) (hparent : d.get? way.dropLast = some .folder)
    (hne : other ≠ way) : (d.set way e).get? other = d.get? other := by
  unfold get?
  rw [lookup_set_of_ne e hne]
  cases d.entries.lookup other with
  | some x => rfl
  | none =>
    have hleads := leads_iff.trans ((leads_set_of_ne e hparent hne).trans leads_iff.symm)
    exact if_congr hleads rfl rfl

/-! ## Where a text can be written -/

/-- The path names a file at the end of the way: one that is there, or one that can be made in the
folder above it. -/
structure Target (d : Disk) (cwd : List String) (path : String) (way : List String) : Prop where
  resolved : d.resolve cwd path = .ok way
  named : (pieces path).getLast?.getD "" ∉ ["", ".", ".."]
  parent : d.get? way.dropLast = some .folder
  free : d.get? way ≠ some .folder

/-- The file may be opened, too. -/
def Writable (d : Disk) (host : Host) (cwd : List String) (path : String) (way : List String) :
    Prop :=
  d.Target cwd path way ∧ host.opens way = true

theorem create_eq_ok_iff {d' : Disk} : d.create host cwd path = .ok (way, d') ↔
    d.Writable host cwd path way ∧ d' = d.set way (.file (some "")) := by
  constructor
  · intro h
    unfold create at h
    cases hway : d.resolve cwd path with
    | error e =>
      rw [hway] at h
      cases h
    | ok way =>
      rw [hway] at h
      simp only [bind, Except.bind] at h
      split at h
      · cases h
      · rename_i hnamed
        split at h
        · cases h
        · rename_i hparent hfree
          split at h
          · rename_i hopens
            cases h
            exact ⟨⟨⟨hway, by simpa [not_or, and_assoc] using hnamed, hparent, hfree⟩, hopens⟩, rfl⟩
          · cases h
        · cases h
        · cases h
  · rintro ⟨⟨htarget, hopens⟩, rfl⟩
    have hnamed := htarget.named
    unfold create
    rw [htarget.resolved]
    simp only [bind, Except.bind]
    rw [if_neg (by simpa [not_or, and_assoc] using hnamed), htarget.parent]
    split
    · exact absurd ‹_› htarget.free
    · rw [if_pos hopens]
    · cases ‹some Entry.folder = some (Entry.file _)›
    · cases ‹some Entry.folder = none›

/-- A file that may be opened is left with as much of the text as it takes. -/
theorem Writable.write_eq (h : d.Writable host cwd path way) (text : String) :
    d.write host cwd path text =
      (if Host.fits (host.fileRoom way) text then .ok () else .error .full,
        d.set way (.file (Host.kept (host.fileRoom way) text))) := by
  simp only [write, create_eq_ok_iff.mpr ⟨h, rfl⟩, set_set]

/-- A step is made from a folder, so a file that is put somewhere is not in its way. -/
theorem step_set {e : Entry} (hparent : d.get? way.dropLast = some .folder)
    (hfree : d.get? way ≠ some .folder) {start next : List String} {name : String}
    (h : d.step start name = .ok next) : (d.set way e).step start name = .ok next := by
  have hne : start ≠ way := by
    rintro rfl
    unfold step at h
    split at h
    · cases h
    · cases h
    · contradiction
  unfold step
  rw [get?_set_of_ne e hparent hne]
  exact h

/-- A way of several steps is a step and a way from there. -/
theorem steps_cons_eq_ok_iff {start stop : List String} {name : String} {names : List String} :
    (name :: names).foldlM d.step start = .ok stop ↔
      ∃ next, d.step start name = .ok next ∧ names.foldlM d.step next = .ok stop := by
  rw [List.foldlM_cons]
  cases d.step start name with
  | error e => simp [bind, Except.bind]
  | ok next => simp [bind, Except.bind]

theorem steps_set {e : Entry} (hparent : d.get? way.dropLast = some .folder)
    (hfree : d.get? way ≠ some .folder) {start stop : List String} {names : List String}
    (h : names.foldlM d.step start = .ok stop) :
    names.foldlM (d.set way e).step start = .ok stop := by
  induction names generalizing start with
  | nil => exact h
  | cons name names ih =>
    obtain ⟨next, hnext, hrest⟩ := steps_cons_eq_ok_iff.mp h
    exact steps_cons_eq_ok_iff.mpr ⟨next, step_set hparent hfree hnext, ih hrest⟩

/-- What is put where a path leads is read under that path. -/
theorem Target.read_set (h : d.Target cwd path way) (content : Option String) :
    (d.set way (.file content)).read cwd path = content.elim (.error .notText) .ok := by
  have hresolved := h.resolved
  unfold resolve at hresolved
  split at hresolved
  · rename_i hpath
    unfold read resolve
    rw [if_pos hpath, steps_set h.parent h.free hresolved]
    simp only [bind, Except.bind, get?_set_self]
    cases content <;> rfl
  · cases hresolved

/-! ## Where a path leads -/

/-- A step that can be made leads where its name says, on every disk. -/
theorem eq_of_step {start next : List String} {name : String} (h : d.step start name = .ok next) :
    next = if name = "" || name = "." then start
      else if name = ".." then start.dropLast else start ++ [name] := by
  unfold step at h
  split at h
  · cases h
  · cases h
  · split at h
    · rename_i hdot
      cases h
      rw [if_pos hdot]
    · rename_i hdot
      rw [if_neg hdot]
      split at h
      · rename_i hdots
        cases h
        rw [if_pos hdots]
      · rename_i hdots
        split at h
        · cases h
        · cases h
          rw [if_neg hdots]

theorem eq_of_steps {d' : Disk} {start stop stop' : List String} {names : List String}
    (h : names.foldlM d.step start = .ok stop) (h' : names.foldlM d'.step start = .ok stop') :
    stop = stop' := by
  induction names generalizing start with
  | nil =>
    cases h
    cases h'
    rfl
  | cons name names ih =>
    obtain ⟨next, hnext, hrest⟩ := steps_cons_eq_ok_iff.mp h
    obtain ⟨next', hnext', hrest'⟩ := steps_cons_eq_ok_iff.mp h'
    rw [eq_of_step hnext', ← eq_of_step hnext] at hrest'
    exact ih hrest hrest'

/-- A path that leads somewhere on two disks leads to the same place. -/
theorem eq_of_resolve {d' : Disk} {way' : List String} (h : d.resolve cwd path = .ok way)
    (h' : d'.resolve cwd path = .ok way') : way = way' := by
  unfold resolve at h h'
  split at h
  · rename_i hpath
    rw [if_pos hpath] at h'
    exact eq_of_steps h h'
  · cases h

end Disk

end Purity
