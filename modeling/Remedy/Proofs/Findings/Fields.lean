import Mathlib
import Remedy.Findings.Sarif
import Remedy.Findings.Semgrep
import Remedy.Proofs.Json.Decoded
/-!
# Fields of reports fit their types

Lines and columns of a report are unsigned numbers of 32 bits, bytes of 64.
A document with a larger one is refused, so all regions of a SARIF log that
was read fit (`Sarif.fits_of_readLog`), as do all marks of an output of
Semgrep (`Semgrep.fits_of_readOutput`).
-/

namespace Remedy

open Json Decoder

namespace Sarif

/-- **A region fits** the types of its fields. -/
structure Region.Fits (r : Region) : Prop where
  words : ∀ field ∈ [r.startLine, r.startColumn, r.endLine, r.endColumn], ∀ n ∈ field, n < 2 ^ 32
  sizes : ∀ field ∈ [r.byteOffset, r.byteLength], ∀ n ∈ field, n < 2 ^ 64

/-- The regions of a result fit. -/
def Result.Fits (result : Result) : Prop :=
  ∀ place, some place ∈ result.places → ∀ region ∈ place.region, region.Fits

theorem yields_readRegion : Yields readRegion Region.Fits := by
  refine yields_record fun r => Returns.map ?_
  have hword := returns_optional yields_word32 r
  have hsize := returns_optional yields_size r
  refine (returns_and (returns_and (returns_and (hword 0 _) (hword 1 _))
    (returns_and (hword 2 _) (hword 3 _))) (returns_and (hsize 4 _) (hsize 5 _))).imp ?_
  rintro a ⟨⟨⟨hstartLine, hstartColumn⟩, hendLine, hendColumn⟩, hoffset, hlength⟩
  exact ⟨List.forall_mem_cons.2 ⟨hstartLine, List.forall_mem_cons.2 ⟨hstartColumn,
    List.forall_mem_cons.2 ⟨hendLine, List.forall_mem_singleton.2 hendColumn⟩⟩⟩,
    List.forall_mem_cons.2 ⟨hoffset, List.forall_mem_singleton.2 hlength⟩⟩

theorem yields_readPlace : Yields readPlace fun place => ∀ region ∈ place.region, region.Fits :=
  yields_record fun r => Returns.map <|
    (returns_and Returns.any (returns_optional yields_readRegion r 1 _)).imp fun _ h => h.2

theorem yields_readResult : Yields readResult Result.Fits := by
  refine yields_record fun r => Returns.map ?_
  have hplaces : Yields (listOf (oneOptional "struct SarifLocation" "physicalLocation" readPlace))
      fun places => ∀ place ∈ places, ∀ p ∈ place, ∀ region ∈ p.region, region.Fits :=
    yields_listOf (yields_record fun r => returns_optional yields_readPlace r 0 _)
  refine (returns_and Returns.any (returns_and (returns_field hplaces ?_ r 5 _) Returns.any)).imp ?_
  · rintro places ⟨⟩
    exact List.forall_mem_nil _
  · exact fun _ h place hplace => h.2.1 _ hplace place rfl

theorem yields_readRun : Yields readRun fun run => ∀ result ∈ run.results.getD [], result.Fits := by
  refine yields_record fun r => Returns.map ?_
  refine (returns_and (returns_and Returns.any
    (returns_optional (yields_listOf yields_readResult) r 1 _)) Returns.any).imp ?_
  rintro ⟨⟨driver, results⟩, columnKind⟩ ⟨⟨-, h⟩, -⟩
  cases results with
  | none => exact List.forall_mem_nil _
  | some results => exact h results rfl

/-- **All regions of a log fit.** -/
theorem fits_of_readLog {doc : Json} {runs : List Run} (h : readLog doc = .ok runs) :
    ∀ run ∈ runs, ∀ result ∈ run.results.getD [], result.Fits := by
  have hlog : Yields readLog fun runs =>
      ∀ run ∈ runs, ∀ result ∈ run.results.getD [], result.Fits := by
    refine yields_record fun r => returns_field (yields_listOf yields_readRun) ?_ r 0 _
    rintro runs ⟨⟩
    exact List.forall_mem_nil _
  exact hlog doc runs h

end Sarif

namespace Semgrep

/-- **A mark fits** the types of its fields. -/
structure Mark.Fits (m : Mark) : Prop where
  line : m.line < 2 ^ 32
  column : m.column < 2 ^ 32
  offset : ∀ n ∈ m.offset, n < 2 ^ 64

theorem yields_readMark : Yields readMark Mark.Fits := by
  refine yields_record fun r => Returns.map ?_
  refine (returns_and (returns_and (returns_required yields_word32 r 0 _)
    (returns_required yields_word32 r 1 _)) (returns_optional yields_size r 2 _)).imp ?_
  rintro a ⟨⟨hline, hcolumn⟩, hoffset⟩
  exact ⟨hline, hcolumn, hoffset⟩

theorem yields_readResult :
    Yields readResult fun result => ∀ mark ∈ [result.start, result.stop], mark.Fits := by
  refine yields_record fun r => Returns.map ?_
  refine (returns_and (returns_and Returns.any (returns_and (returns_required yields_readMark r 2 _)
    (returns_required yields_readMark r 3 _))) Returns.any).imp ?_
  rintro a ⟨⟨-, hstart, hstop⟩, -⟩
  exact List.forall_mem_cons.2 ⟨hstart, List.forall_mem_singleton.2 hstop⟩

/-- **All marks of an output fit.** -/
theorem fits_of_readOutput {doc : Json} {results : List Result} (h : readOutput doc = .ok results) :
    ∀ result ∈ results, ∀ mark ∈ [result.start, result.stop], mark.Fits := by
  have houtput : Yields readOutput fun results =>
      ∀ result ∈ results, ∀ mark ∈ [result.start, result.stop], mark.Fits := by
    refine yields_record fun r => returns_field (yields_listOf yields_readResult) ?_ r 0 _
    rintro results ⟨⟩
    exact List.forall_mem_nil _
  exact houtput doc results h

end Semgrep

end Remedy
