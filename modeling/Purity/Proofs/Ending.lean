-- How a check ends. It makes its text first and delivers it then, so a run that cannot make the text
-- or open its file has printed nothing and written nothing, and only the files that the command line
-- names can be in its way. Once the text is made, a file or a stream that does not take all of it is
-- left with a beginning.
import Purity.Command
import Purity.Proofs.Account
import Purity.Proofs.ModuleText
import Purity.Proofs.Writing

namespace Purity

/-! ## What a check needs and what it leaves -/

namespace CheckOptions

/-- The file that is named describes the module. -/
def Loads (o : CheckOptions) (d : Disk) (cwd : List String) (m : Module) : Prop :=
  ∃ text, d.read cwd o.module = .ok text ∧ Module.parse o.module text = .ok m

/-- No file that is named is in the way of a check. -/
structure Ready (o : CheckOptions) (host : Host) (d : Disk) (cwd : List String) : Prop where
  config : ∀ path ∈ o.config, ∃ text c, d.read cwd path = .ok text ∧ Config.parse text = .ok c
  module : ∃ m, o.Loads d cwd m
  output : ∀ path ∈ o.output, ∃ way, d.Writable host cwd path way

/-- The files that are named are the same on both disks. -/
structure Alike (o : CheckOptions) (cwd : List String) (d d' : Disk) : Prop where
  config : ∀ path ∈ o.config, d'.read cwd path = d.read cwd path
  module : d'.read cwd o.module = d.read cwd o.module
  output : ∀ path ∈ o.output, (∃ way, d'.Target cwd path way) ↔ ∃ way, d.Target cwd path way

variable {o : CheckOptions} {host : Host} {d d' : Disk} {cwd : List String}

theorem Alike.symm (h : o.Alike cwd d d') : o.Alike cwd d' d where
  config path hpath := (h.config path hpath).symm
  module := h.module.symm
  output path hpath := (h.output path hpath).symm

/-- A path leads to the same place on both disks, so the same file may be opened. -/
theorem Alike.writable (h : o.Alike cwd d d') {path : String} (hpath : path ∈ o.output)
    {way : List String} (hway : d.Writable host cwd path way) : d'.Writable host cwd path way := by
  obtain ⟨way', htarget⟩ := (h.output path hpath).mpr ⟨way, hway.1⟩
  have heq : way' = way := Disk.eq_of_resolve htarget.resolved hway.1.resolved
  exact ⟨heq ▸ htarget, hway.2⟩

theorem Ready.of_alike (hready : o.Ready host d cwd) (h : o.Alike cwd d d') :
    o.Ready host d' cwd where
  config := by
    intro path hpath
    rw [h.config path hpath]
    exact hready.config path hpath
  module := by
    unfold Loads
    rw [h.module]
    exact hready.module
  output path hpath := by
    obtain ⟨way, hway⟩ := hready.output path hpath
    exact ⟨way, h.writable hpath hway⟩

end CheckOptions

namespace Command

variable {host : Host} {d d' : Disk} {cwd : List String} {color : Bool} {o : CheckOptions}
  {text : String}

section

variable {w : World} {path : String} {way : List String}

end

/-- The ends that a check can have, with and without a text, and wherever that should go. -/
inductive Ends (host : Host) (d : Disk) (cwd : List String) :
    Except Stop String → Option String → Outcome → Prop
  | stopped (s : Stop) (output : Option String) : Ends host d cwd (.error s) output ⟨some s, "", d⟩
  | refused (text : String) {path : String} (h : ¬ ∃ way, d.Writable host cwd path way) :
    Ends host d cwd (.ok text) (some path) ⟨some ⟨none, .disk "Failed to write output"⟩, "", d⟩
  | printed (text : String) :
    Ends host d cwd (.ok text) none
      ⟨if Host.fits host.printRoom text then none else some ⟨none, .system host.complaint⟩,
        Host.beginning host.printRoom text, d⟩
  | written (text : String) {path : String} {way : List String}
    (h : d.Writable host cwd path way) :
    Ends host d cwd (.ok text) (some path)
      ⟨if Host.fits (host.fileRoom way) text then none
        else some ⟨none, .disk "Failed to write output"⟩,
        "", d.set way (.file (Host.kept (host.fileRoom way) text))⟩

section

variable {made : Except Stop String} {output : Option String} {r r' : Outcome}

/-- Where the same text has the same place, it makes no other difference which disk it is. -/
theorem Ends.same (h : Ends host d cwd made output r) (h' : Ends host d' cwd made output r')
    (hiff : ∀ path ∈ output, ∀ way,
      d'.Writable host cwd path way ↔ d.Writable host cwd path way) :
    r'.stop = r.stop ∧ r'.printed = r.printed ∧
      ∀ path ∈ output, (∃ text, made = .ok text) → (∃ way, d.Writable host cwd path way) →
        r'.disk.read cwd path = r.disk.read cwd path := by
  cases h with
  | stopped s output =>
    cases h'
    exact ⟨rfl, rfl, by simp⟩
  | refused text hnone =>
    cases h' with
    | refused _ _ =>
      refine ⟨rfl, rfl, ?_⟩
      rintro path ⟨⟩ _ hway
      exact absurd hway hnone
    | written _ hway' => exact absurd ⟨_, (hiff _ rfl _).mp hway'⟩ hnone
  | printed text =>
    cases h'
    exact ⟨rfl, rfl, by simp⟩
  | written text hway =>
    cases h' with
    | refused _ hnone => exact absurd ⟨_, (hiff _ rfl _).mpr hway⟩ hnone
    | written _ hway' =>
      have heq := Disk.eq_of_resolve hway'.1.resolved hway.1.resolved
      subst heq
      refine ⟨rfl, rfl, ?_⟩
      rintro path ⟨⟩ _ _
      rw [hway.1.read_set, hway'.1.read_set]

end

/-! ## The exit code -/

end Command

end Purity
