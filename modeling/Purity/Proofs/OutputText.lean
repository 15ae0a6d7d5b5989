-- The output of a check is read back from its JSON. The text is indented, one item or member a
-- line, and no name, message or path in it can be mistaken for anything else.
import Purity.Proofs.Records
import Purity.Rendering

namespace Purity

open Json

/-! ## Diagnostics -/

theorem Severity.tells (s : Severity) : Tells Severity.read (.string s.key) s := by
  apply tells_choice
  cases s <;> rfl

theorem Location.tells (l : Location) : Tells Location.read l.toJson l := by
  apply tells_record Location.fields (l.file, l.line, l.column, ()) rfl (by decide) (.refl _)
  apply Fields.fits_given rfl (tells_path l.file)
  apply Fields.fits_given rfl (tells_word l.line)
  apply Fields.fits_given rfl (tells_word l.column)
  trivial

theorem Diagnostic.tells (d : Diagnostic) : Tells Diagnostic.read d.toJson d := by
  apply tells_record Diagnostic.fields (d.severity, d.message, d.location, d.function, ()) rfl
    (by decide) (.refl _)
  apply Fields.fits_given rfl d.severity.tells
  apply Fields.fits_given rfl (tells_text d.message)
  apply Fields.fits_given rfl d.location.tells
  apply Fields.fits_given rfl (tells_text d.function)
  trivial

/-! ## Reports -/

theorem Level.tells (l : Level) : Tells Level.read l.toJson l := by
  apply tells_choice
  cases l <;> rfl

theorem FunctionReport.tells {r : FunctionReport} (h : r.warnings < UInt64.size) :
    Tells FunctionReport.read r.toJson r := by
  apply tells_record FunctionReport.fields
    (r.id, r.declared, r.inferred, r.synthesized, r.warnings, r.suggested, ()) rfl (by decide)
    (.refl _)
  apply Fields.fits_given rfl (tells_text r.id)
  apply Fields.fits_given rfl r.declared.tells
  apply Fields.fits_given rfl r.inferred.tells
  apply Fields.fits_given rfl (tells_truth r.synthesized)
  apply Fields.fits_given rfl (tells_size h)
  apply Fields.fits_given rfl (tells_truth r.suggested)
  trivial

theorem FunctionFailure.tells (f : FunctionFailure) : Tells FunctionFailure.read f.toJson f := by
  apply tells_record FunctionFailure.fields (f.id, f.reason, ()) rfl (by decide) (.refl _)
  apply Fields.fits_given rfl (tells_text f.id)
  apply Fields.fits_given rfl (tells_text f.reason)
  trivial

/-- The counts of a report are 64 bit words. -/
structure ModuleReport.Fits (r : ModuleReport) : Prop where
  warnings : ∀ f ∈ r.functions, f.warnings < UInt64.size
  skipped : r.skipped < UInt64.size

theorem ModuleReport.tells {r : ModuleReport} (h : r.Fits) :
    Tells ModuleReport.read r.toJson r := by
  apply tells_record ModuleReport.fields (r.functions, r.skipped, r.failures, ()) rfl (by decide)
    (.refl _)
  apply Fields.fits_given rfl (tells_list fun f hf => FunctionReport.tells (h.warnings f hf))
  apply Fields.fits_given rfl (tells_size h.skipped)
  apply Fields.fits_given rfl (tells_list fun f _ => f.tells)
  trivial

/-! ## Outputs -/

namespace CheckOutput

theorem tells {o : CheckOutput} (h : o.report.Fits) : Tells CheckOutput.read o.toJson o := by
  apply tells_record CheckOutput.fields (o.module, o.diagnostics, o.report, ()) rfl (by decide)
    (.refl _)
  apply Fields.fits_given rfl (tells_text o.module)
  apply Fields.fits_given rfl (tells_list fun d _ => d.tells)
  apply Fields.fits_given rfl (ModuleReport.tells h)
  trivial

/-- The JSON of an output is laid out in lines, ends in a newline and is read back as the output. -/
theorem an_output_is_read_back_from_its_json (o : CheckOutput) (h : o.report.Fits) :
    o.jsonText = String.ofList (Layout.lines.lay 0 o.toJson ++ ['\n']) ∧
      Json.parse CheckOutput.read o.jsonText = .ok o := by
  have ho := tells h
  exact ⟨ho.plain.pretty_eq, ho.parse_pretty⟩

/-- An output whose texts hold quotes, backslashes, control characters and JSON. -/
def awkward : CheckOutput where
  module := "a\"b\\c"
  diagnostics := [⟨.warning, "\n\u0000\u001F\u007F", ⟨"C:\\é\\𝄞.kt", 1, 18446744073709551615⟩, ""⟩,
    ⟨.info, "[]", ⟨"", 0, 0⟩, "\", \""⟩]
  report := ⟨[⟨"null", .none, .pure, true, 18446744073709551615, false⟩,
    ⟨"", .readonly, .readonly, false, 0, true⟩], 18446744073709551615, []⟩

theorem an_awkward_output_is_read_back :
    awkward.report.Fits ∧ awkward.jsonText = String.ofList
      (Layout.lines.lay 0 awkward.toJson ++ ['\n']) ∧
      Json.parse CheckOutput.read awkward.jsonText = .ok awkward := by
  have hfits : awkward.report.Fits := ⟨by decide, by decide⟩
  exact ⟨hfits, an_output_is_read_back_from_its_json awkward hfits⟩

end CheckOutput

end Purity
