import Mathlib
import Remedy.Proofs.Change.Applied
import Remedy.Proofs.Diff.Replay
import Remedy.Proofs.Text.Lines
/-!
# A result tells the whole change

Whatever codemods do, the text of a file is cut only between characters,
and what a result lists leads to the new text in two ways: its changes, put
in one at a time from the last to the first, and its hunks, put back from
left to right. The changes cut the text into pieces
(`Execution.exists_pieces`); the hunks do if the comparison of the two
texts is sound.
-/

namespace Remedy

/-- What a change puts where. -/
def Change.edit (c : Change) : Span × String := (c.span, c.replacement)

namespace Execution

variable {ctx : CodemodContext} {catalog : Catalog} {found : List Match}

/-- **The changes of matches that do not overlap cut the text into pieces.** -/
theorem exists_pieces (h : found.Pairwise fun a b => ¬ a.site.span.overlaps b.site.span) :
    ∃ ps rest, ctx.unit.text = Text.Piece.oldText rest ps ∧
      (ofMatches ctx catalog found).changes.map Change.edit = Text.Piece.edits 0 ps := by
  have hfits : ∀ e ∈ (ofMatches ctx catalog found).changes.map Change.edit,
      e.1.start ≤ e.1.stop ∧
        Text.isBoundary ctx.unit.text e.1.start ∧ Text.isBoundary ctx.unit.text e.1.stop := by
    intro e he
    obtain ⟨c, hc, rfl⟩ := List.mem_map.1 he
    obtain ⟨m, -, hmade⟩ := exists_madeFor hc
    exact (fits_iff.1 hmade.fits).2
  have horder : ((ofMatches ctx catalog found).changes.map Change.edit).Pairwise
      fun a b => a.1.stop ≤ b.1.start :=
    List.pairwise_map.2 (pairwise_stop_le_start h)
  -- the pieces start where the text does, with nothing ahead of them
  exact @Text.Piece.exists_pieces ctx.unit.text "" _ (fun e he => (hfits e he).1)
    (fun e he => (hfits e he).2) horder (fun e _ => Nat.zero_le e.1.start) ctx.unit.text
    String.empty_append.symm

/-- The pieces that the changes cut lead to the new text. -/
theorem text?_of_pieces {e : Execution} {text : String} {ps : List Text.Piece} {rest : String}
    (htext : text = Text.Piece.oldText rest ps)
    (hedits : e.changes.map Change.edit = Text.Piece.edits 0 ps) :
    e.text? text = some (Text.Piece.newText rest ps) := by
  have hsplice := Text.Piece.splice?_pieces "" rest ps
  rw [String.empty_append, ← htext] at hsplice
  have hmap : e.changes.map (fun c => (c.span, c.replacement)) = Text.Piece.edits 0 ps := hedits
  rw [text?, hmap]
  exact hsplice

end Execution

namespace FileResult

variable {differ : Differ} {ctx : PlanContext} {findings : List Finding}

/-- **The text is cut between characters only**: where lines and columns
are looked up, where a replacement is let through, and where changes and
hunks meet the text. -/
structure CutsBetween (differ : Differ) (ctx : PlanContext) (findings : List Finding) : Prop where
  lines : ∀ n span, ctx.unit.lines.lineSpan? n = some span →
    ∃ line, Text.slice? ctx.unit.text span = some line
  columns : ∀ offset, ∃ start line piece,
    ctx.unit.lines.line? (ctx.unit.position offset).line = some (start, line) ∧
      Text.slice? ctx.unit.text ⟨start, start + piece.utf8ByteSize⟩ = some piece ∧
      piece.length = (ctx.unit.position offset).column ∧ start + piece.utf8ByteSize ≤ offset
  replacements : ∀ site span, Execution.fits ctx.unit site span →
    (Text.slice? ctx.unit.text span).isSome
  changes : (executed ctx findings).text? ctx.unit.text = some (newText ctx findings)
  hunks : ∀ hunk ∈ (ofFindingsBy differ ctx findings).diff,
    Text.slice? ctx.unit.text hunk.span = some hunk.original ∧
      ∃ span, Text.slice? (newText ctx findings) span = some hunk.replacement

/-- **A result is faithful to a text**: its changes follow each other and
tell what they replace, and both the changes and the hunks lead to the new
text, or to the old one if there is no new one. -/
structure Faithful (text : String) (result : FileResult) : Prop where
  ordered : result.changes.Pairwise fun a b => a.span.stop ≤ b.span.start
  originals : ∀ c ∈ result.changes, Text.slice? text c.span = some c.original
  replaced : Text.replaceFromLast? text (result.changes.map Change.edit) =
    some (result.transformed.getD text)
  replayed : DiffHunk.applyAll? text result.diff = some (result.transformed.getD text)

/-! ## The changes of a file -/

theorem ordered_executed (ctx : PlanContext) (findings : List Finding) :
    (executed ctx findings).changes.Pairwise fun a b => a.span.stop ≤ b.span.start :=
  Execution.pairwise_stop_le_start (Plan.pairwise_accepted ctx findings)

/-- Every change of a file is made for an accepted match. -/
theorem madeFor_executed {c : Change} (hc : c ∈ (executed ctx findings).changes) :
    ∃ m ∈ (Plan.ofFindings ctx findings).accepted, c.MadeFor ctx.unit m :=
  Execution.exists_madeFor hc

/-- **The changes of a file cut its text into pieces.** -/
theorem exists_pieces_of_executed (ctx : PlanContext) (findings : List Finding) :
    ∃ ps rest, ctx.unit.text = Text.Piece.oldText rest ps ∧
      (executed ctx findings).changes.map Change.edit = Text.Piece.edits 0 ps :=
  @Execution.exists_pieces (Plan.view ctx) ctx.catalog _ (Plan.pairwise_accepted ctx findings)

theorem newText_eq_of_pieces {ps : List Text.Piece} {rest : String}
    (htext : ctx.unit.text = Text.Piece.oldText rest ps)
    (hedits : (executed ctx findings).changes.map Change.edit = Text.Piece.edits 0 ps) :
    newText ctx findings = Text.Piece.newText rest ps := by
  rw [newText, Execution.text?_of_pieces htext hedits, Option.getD_some]

/-- **The changes put in from left to right** give the new text. -/
theorem text?_executed (ctx : PlanContext) (findings : List Finding) :
    (executed ctx findings).text? ctx.unit.text = some (newText ctx findings) := by
  obtain ⟨ps, rest, htext, hedits⟩ := exists_pieces_of_executed ctx findings
  rw [Execution.text?_of_pieces htext hedits, newText_eq_of_pieces htext hedits]

/-- **The changes made one at a time from the last to the first** give the
new text. -/
theorem replaceFromLast?_executed (ctx : PlanContext) (findings : List Finding) :
    Text.replaceFromLast? ctx.unit.text ((executed ctx findings).changes.map Change.edit) =
      some (newText ctx findings) := by
  obtain ⟨ps, rest, htext, hedits⟩ := exists_pieces_of_executed ctx findings
  have hreplace := Text.Piece.replaceFromLast?_pieces "" rest ps
  rw [String.empty_append, ← htext] at hreplace
  rw [newText_eq_of_pieces htext hedits, hedits]
  exact hreplace

/-! ## The result of a file -/

/-- The new text that a result tells, if the comparison is sound. -/
theorem getD_transformed (hsound : differ.Sound ctx.unit.text (newText ctx findings)) :
    (ofParsed differ ctx findings).transformed.getD ctx.unit.text = newText ctx findings := by
  have hreplay := @Diff.applyAll?_ofTextsBy _ _ _ ctx.unit.path.display hsound
  rw [ofParsed]
  by_cases hnil : (Diff.ofTextsBy differ ctx.unit.path.display ctx.unit.text
      (newText ctx findings)).hunks = []
  · -- without a hunk the replay gives the old text
    rw [hnil] at hreplay
    have hsame : some ctx.unit.text = some (newText ctx findings) :=
      (Text.sliceFrom?_append "" ctx.unit.text).symm.trans hreplay
    simp only [hnil, List.isEmpty_nil, Bool.not_true, Bool.false_eq_true, if_false,
      Option.getD_none]
    exact Option.some.inj hsame
  · simp [hnil]

/-- **A result tells the whole change**, whatever the codemods do: the text
is cut between characters only, and the changes and the hunks of the result
both lead to its new text. -/
theorem cutsBetween_and_faithful (hparsed : ctx.unit.parseError? = none)
    (hsound : differ.Sound ctx.unit.text (newText ctx findings)) :
    CutsBetween differ ctx findings ∧
      Faithful ctx.unit.text (ofFindingsBy differ ctx findings) := by
  have hresult := @ofFindingsBy_of_parsed ctx findings differ hparsed
  have hnew := getD_transformed hsound
  refine ⟨⟨?_, LineIndex.exists_slice_position ctx.unit.text, ?_, text?_executed ctx findings, ?_⟩,
    ⟨?_, ?_, ?_, ?_⟩⟩
  case refine_1 =>
    intro n span hspan
    exact LineIndex.slice?_lineSpan? hspan
  case refine_2 =>
    intro site span hfits
    exact Execution.isSome_slice?_of_fits hfits
  case refine_3 =>
    rw [hresult]
    exact Diff.slices_ofTextsBy hsound
  case refine_4 =>
    rw [hresult]
    exact ordered_executed ctx findings
  case refine_5 =>
    intro c hc
    rw [hresult] at hc
    obtain ⟨m, -, hmade⟩ := madeFor_executed hc
    exact hmade.original
  case refine_6 =>
    rw [hresult, hnew]
    exact replaceFromLast?_executed ctx findings
  case refine_7 =>
    rw [hresult, hnew]
    exact Diff.applyAll?_ofTextsBy hsound

/-- Two lines: the first one gets another text, the second one goes. -/
def twoLines : PlanContext :=
  .ofScripts "one\ntwo\n" [.putting "word" "ne" "ther" [] 0 0, .putting "line" "two\n" "" [] 0 0]

theorem faithful_twoLines : newText twoLines [] = "other\n" ∧
    twoLines.unit.parseError? = none ∧
    Differ.byScript.Sound twoLines.unit.text (newText twoLines []) ∧
    CutsBetween .byScript twoLines [] ∧
      Faithful twoLines.unit.text (ofFindingsBy .byScript twoLines []) := by
  have hnew : newText twoLines [] = "other\n" := by cbv
  have hsound : Differ.byScript.Sound twoLines.unit.text (newText twoLines []) := by
    rw [hnew]
    exact ⟨by cbv, by cbv, of_decide_eq_true (by cbv)⟩
  exact ⟨hnew, rfl, hsound, cutsBetween_and_faithful rfl hsound⟩

end FileResult

end Remedy
