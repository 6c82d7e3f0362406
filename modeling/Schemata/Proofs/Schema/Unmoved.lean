import Schemata.Pattern.Reader
import Schemata.Proofs.Schema.Files
import Schemata.Proofs.Validator.Streams

/-!
# `Schemata.Proofs.Schema.Unmoved` — validation does not move streams

Only the size of a file is read off a stream, by moving it. Since it is moved back, validation may visit it as often as it
likes, in whatever conditions, and stop wherever it likes.

## Contents
- **Sizes.** `File.size?_eq`: what an upload reports comes before what it holds.
- **Streams.** `streams_unmoved`, and `reported_size_counts`, where the two sizes differ.
-/

namespace Schemata

open Validator

/-! ## Sizes -/

namespace File

/-- The whole of a file, wherever it is being read. -/
def content : File → List UInt8
  | .bytes _ content | .stream _ content _ | .upload _ content _ => content

/-- The size that an upload reports. -/
def reportedSize? : File → Option Int
  | .upload _ _ reported => reported.size
  | _ => none

/-- Whether a file can be measured. -/
def isSeekable : File → Bool
  | .stream _ _ seekable => seekable
  | .upload _ _ reported => reported.seekable
  | _ => true

theorem size?_eq (f : File) :
    f.size? = f.reportedSize?.or (if f.isSeekable then some (f.content.length : Int) else none) := by
  cases f with
  | bytes => rfl
  | stream => rfl
  | upload handle content reported =>
    rw [size?, reportedSize?, isSeekable, File.content]
    cases reported.size <;> rfl

end File

/-! ## Streams -/

/-- A validator of files accepts the files within its limits, and leaves them as they are. -/
theorem validate_file_iff {limits : FileLimits} {f : File} :
    (Validator.file limits).validate (.file f) = .ok (.ok (.file f)) ↔ f.isFile = true ∧ limits.Fit f := by
  constructor
  · intro haccepted
    obtain ⟨r, hr, hok⟩ := passes_iff.mp (passes_iff_validate.mpr ⟨_, haccepted⟩)
    cases hf : f.isFile with
    | true => exact ⟨rfl, (passes_file hf limits).mp ⟨r, hr, hok⟩⟩
    | false =>
      -- an upload that reports no media type is refused
      have hreject : (Validator.file limits).check (.file f) [] = .ok (.reject (.file f) [] (wrongType "file" (.file f))) := by
        show (if !f.isFile then _ else _) = _
        rw [hf]
        rfl
      obtain rfl := Except.ok.inj (hreject.symm.trans hr)
      cases hok
  · rintro ⟨hf, hfit⟩
    rw [validate, accept_file hf hfit]
    rfl

/-- **Validation does not move streams**: whatever is validated, it ends with every stream where it stood in the
beginning, also if a fault ends it, and with what comes of the sizes alone, so that doing it again comes to the same. The
size of a file is the one that it reports, and otherwise that of its whole content wherever it is being read, and with
that size it has to lie within the limits. -/
theorem streams_unmoved (positions : File.Positions) :
    (∀ (vd : Validator) (v : Value),
        vd.validateMoving v positions = (vd.validate v, positions) ∧
        vd.validateMoving v (vd.validateMoving v positions).2 = vd.validateMoving v positions ∧
        vd.validateOpen v positions = (vd.validate v).map fun outcome => (outcome, positions)) ∧
      ∀ f : File,
        f.measure positions =
          (f.reportedSize?.or (if f.isSeekable then some (f.content.length : Int) else none), positions) ∧
        ∀ limits : FileLimits, ((Validator.file limits).validateMoving (.file f) positions).1 = .ok (.ok (.file f)) ↔
          f.isFile = true ∧ limits.Fit f := by
  refine ⟨fun vd v => ?_, fun f => ⟨?_, fun limits => ?_⟩⟩
  · refine ⟨vd.validateMoving_eq v positions, ?_, ?_⟩
    · rw [vd.validateMoving_eq v positions, vd.validateMoving_eq v positions]
    · rw [validateOpen, check_runsAs vd v [] positions, validate]
      cases vd.check v [] <;> rfl
  · rw [f.measure_eq, f.size?_eq]
  · rw [validateMoving_eq]
    exact validate_file_iff

attribute [local instance] Pattern.engine

/-- **A size that is reported counts in place of the real one**: three bytes that report to be one are too small for a
lower bound of three. -/
theorem reported_size_counts :
    let schema := binaryContent.adding "minLength" (.int 3)
    let f := File.upload 0 [97, 98, 99] ⟨some (.text "image/png"), none, some 1, true⟩
    f.isFile = true ∧ f.isSeekable = true ∧ Value.related .less (.int f.content.length) (.int 3) = .ok false ∧
      ∃ vd, compile (.dict schema) = .ok vd ∧
        ∀ positions, vd.validateMoving (.file f) positions = (.ok (.error [⟨[], .fileTooSmall "3"⟩]), positions) := by
  intro schema f
  have hcompile : compile (.dict schema) = .ok (.file ⟨⟨some (.int 3), none⟩, []⟩) := by with_unfolding_all rfl
  have hplain : (Value.int 3).plain? = .ok "3" := by
    rw [Value.plain?, if_pos (by decide +kernel)]
    rfl
  have hless : limitIssues .less 1 (some (.int 3)) [] .fileTooSmall = .ok [⟨[], .fileTooSmall "3"⟩] := by
    simp only [limitIssues, hplain]
    rfl
  refine ⟨rfl, rfl, rfl, _, hcompile, fun positions => ?_⟩
  rw [validateMoving_eq, validate, check_file rfl, if_pos (by decide), show f.size? = some 1 from rfl, fileSizeIssues_eq,
    hless]
  rfl

end Schemata
