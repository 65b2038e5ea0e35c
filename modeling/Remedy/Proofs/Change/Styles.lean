import Mathlib
import Remedy.Proofs.Change.Replay
import Remedy.Proofs.Text.Breaks
/-!
# Changes keep the style

What a codemod puts in is put in the style of the file first. Each of the
pieces of the new text, the ones that stay and the ones that are new, has the
breaks of that style only (`uniform_newText`), and such pieces do not meet
inside of a break. So the new text has the style of the file, or no break at
all (`lineEnding_of_text?`). In a file with `\r\n` this needs that no change
begins or ends between the two halves of a break.
-/

namespace Remedy

namespace Line

variable {b : LineBreak}

theorem Uniform.not_isInsideBreak {text : String} {o : Nat} (hb : b ≠ .crlf)
    (h : Uniform b text.toList) : ¬ Text.IsInsideBreak text o := by
  rintro ⟨before, after, rfl, -⟩
  have hcut : ¬ SplitsBreak before.toList ("\r\n" ++ after).toList := by
    rintro ⟨-, hfirst⟩
    simp at hfirst
  have hparts := (uniform_append_iff (b := b) hcut).1
  rw [← String.toList_append, ← String.append_assoc] at hparts
  have hmem : .crlf ∈ breaksOf ("\r\n" ++ after).toList := by
    simp [breaksOf]
  exact hb ((hparts h).2 _ hmem).symm

end Line

namespace Text.Piece

variable {ps : List Piece} {rest : String} {b : LineBreak}

/-- **The pieces that stay are uniform** if the old text is and is cut outside
of breaks only. -/
theorem uniform_of_oldText (before : String)
    (huniform : Line.Uniform b (oldText rest ps).toList)
    (hcuts : ∀ e ∈ edits before.utf8ByteSize ps,
      ¬ IsInsideBreak (before ++ oldText rest ps) e.1.start ∧
        ¬ IsInsideBreak (before ++ oldText rest ps) e.1.stop) :
    (∀ p ∈ ps, Line.Uniform b p.gap.toList) ∧ Line.Uniform b rest.toList := by
  induction ps generalizing before with
  | nil => exact ⟨nofun, huniform⟩
  | cons p ps ih =>
    have hedits : edits before.utf8ByteSize (p :: ps) =
        (⟨(before ++ p.gap).utf8ByteSize, (before ++ p.gap ++ p.old).utf8ByteSize⟩, p.new) ::
          edits (before ++ p.gap ++ p.old).utf8ByteSize ps := by
      simp only [edits, String.utf8ByteSize_append]
    rw [hedits, List.forall_mem_cons, append_oldText_cons] at hcuts
    obtain ⟨⟨hstart, hstop⟩, hlater⟩ := hcuts
    have hold : ¬ Line.SplitsBreak (p.gap ++ p.old).toList (oldText rest ps).toList := by
      intro hsplits
      refine hstop (isInsideBreak_of_splitsBreak ?_)
      rw [String.append_assoc, String.toList_append]
      have hcut := hsplits.around before.toList []
      rwa [List.append_nil] at hcut
    have hgap : ¬ Line.SplitsBreak p.gap.toList p.old.toList := by
      intro hsplits
      have hparts : before ++ p.gap ++ p.old ++ oldText rest ps =
          (before ++ p.gap) ++ (p.old ++ oldText rest ps) := by simp only [String.append_assoc]
      rw [hparts] at hstart
      refine hstart (isInsideBreak_of_splitsBreak ?_)
      rw [String.toList_append, String.toList_append]
      exact hsplits.around before.toList (oldText rest ps).toList
    rw [oldText, String.toList_append, Line.uniform_append_iff hold, String.toList_append,
      Line.uniform_append_iff hgap] at huniform
    obtain ⟨hgaps, hrest⟩ := ih (before ++ p.gap ++ p.old) huniform.2 hlater
    exact ⟨List.forall_mem_cons.2 ⟨huniform.1.1, hgaps⟩, hrest⟩

/-- **The new text is uniform** if what stays and what is put in is. -/
theorem uniform_newText (hgaps : ∀ p ∈ ps, Line.Uniform b p.gap.toList)
    (hnews : ∀ p ∈ ps, Line.Uniform b p.new.toList) (hrest : Line.Uniform b rest.toList) :
    Line.Uniform b (newText rest ps).toList := by
  induction ps with
  | nil => exact hrest
  | cons p ps ih =>
    obtain ⟨hgap, hgaps⟩ := List.forall_mem_cons.1 hgaps
    obtain ⟨hnew, hnews⟩ := List.forall_mem_cons.1 hnews
    rw [newText, String.toList_append, String.toList_append]
    exact (hgap.append hnew).append (ih hgaps hnews)

end Text.Piece

namespace Execution

variable {ctx : CodemodContext} {catalog : Catalog} {found : List Match} {b : LineBreak}

/-- What a change puts in is in the style of the file. -/
theorem uniform_replacement (hstyle : ctx.unit.lineEnding = .ofBreak b) {c : Change}
    (hc : c ∈ (ofMatches ctx catalog found).changes) :
    Line.Uniform b c.replacement.toList := by
  obtain ⟨m, -, hmade⟩ := mem_changes.1 hc
  obtain ⟨codemod, -, houtcome⟩ := Option.map_eq_some_iff.1 hmade
  split at houtcome
  case h_1 r hr =>
    rw [(eq_of_ofReplacement houtcome).2, hstyle]
    exact LineEnding.uniform_apply b r.text
  case h_2 => cases houtcome

/-- **Changes keep the style of the file.** -/
theorem lineEnding_of_text? (hstyle : ctx.unit.lineEnding = .ofBreak b)
    (hsites : found.Pairwise fun m n => ¬ m.site.span.overlaps n.site.span)
    (hcuts : b = .crlf → ∀ c ∈ (ofMatches ctx catalog found).changes,
      ¬ Text.IsInsideBreak ctx.unit.text c.span.start ∧
        ¬ Text.IsInsideBreak ctx.unit.text c.span.stop) :
    ∃ text, (ofMatches ctx catalog found).text? ctx.unit.text = some text ∧
      LineEnding.detect text = if Text.HasBreak text then .ofBreak b else .none := by
  obtain ⟨ps, rest, htext, hedits⟩ := @exists_pieces ctx catalog found hsites
  have huniform := (LineEnding.detect_eq_ofBreak_iff.1 hstyle).2
  have houtside : ∀ c ∈ (ofMatches ctx catalog found).changes,
      ¬ Text.IsInsideBreak ctx.unit.text c.span.start ∧
        ¬ Text.IsInsideBreak ctx.unit.text c.span.stop := by
    intro c hc
    -- breaks of one character cannot be cut in two
    by_cases hb : b = .crlf
    · exact hcuts hb c hc
    · exact ⟨huniform.not_isInsideBreak hb, huniform.not_isInsideBreak hb⟩
  have hnews : ∀ p ∈ ps, Line.Uniform b p.new.toList := by
    intro p hp
    have hmem : p.new ∈ ((ofMatches ctx catalog found).changes.map Change.edit).map Prod.snd := by
      rw [hedits, Text.Piece.map_snd_edits]
      exact List.mem_map_of_mem hp
    rw [List.map_map] at hmem
    obtain ⟨c, hc, hnew⟩ := List.mem_map.1 hmem
    exact hnew ▸ uniform_replacement hstyle hc
  have hold : ∀ e ∈ Text.Piece.edits "".utf8ByteSize ps,
      ¬ Text.IsInsideBreak ("" ++ Text.Piece.oldText rest ps) e.1.start ∧
        ¬ Text.IsInsideBreak ("" ++ Text.Piece.oldText rest ps) e.1.stop := by
    rw [String.utf8ByteSize_empty, ← hedits, String.empty_append, ← htext, List.forall_mem_map]
    exact houtside
  obtain ⟨hgaps, hrest⟩ := Text.Piece.uniform_of_oldText "" (htext ▸ huniform) hold
  have hnew := Text.Piece.uniform_newText hgaps hnews hrest
  refine ⟨_, text?_of_pieces htext hedits, ?_⟩
  split
  case isTrue hbreak => exact LineEnding.detect_eq_ofBreak_iff.2 ⟨hbreak, hnew⟩
  case isFalse hnone => exact LineEnding.detect_eq_none_iff.2 hnone

/-- A file with `\r\n`, and two scripts that put in breaks of other kinds. -/
def windowsFile : PlanContext :=
  .ofScripts "a\r\nb\r\n" [.putting "first" "a" "x\ny" [] 0 0, .putting "second" "b" "z\r" [] 0 0]

theorem lineEnding_windowsFile :
    windowsFile.unit.lineEnding = .ofBreak .crlf ∧
    (Plan.ofFindings windowsFile []).accepted.Pairwise
      (fun m n => ¬ m.site.span.overlaps n.site.span) ∧
    (FileResult.executed windowsFile []).changes.map Change.span = [⟨0, 1⟩, ⟨3, 4⟩] ∧
    FileResult.newText windowsFile [] = "x\r\ny\r\nz\r\n\r\n" ∧
    ∃ text, (FileResult.executed windowsFile []).text? windowsFile.unit.text = some text ∧
      LineEnding.detect text = if Text.HasBreak text then .ofBreak .crlf else .none := by
  have hstyle : windowsFile.unit.lineEnding = .ofBreak .crlf := by decide
  have hsites := Plan.pairwise_accepted windowsFile []
  have hspans : (FileResult.executed windowsFile []).changes.map Change.span =
      [⟨0, 1⟩, ⟨3, 4⟩] := by cbv
  have hcuts : ∀ span ∈ (FileResult.executed windowsFile []).changes.map Change.span,
      ¬ Text.IsInsideBreak windowsFile.unit.text span.start ∧
        ¬ Text.IsInsideBreak windowsFile.unit.text span.stop := by
    rw [hspans]
    decide
  exact ⟨hstyle, hsites, hspans, by cbv,
    lineEnding_of_text? hstyle hsites fun _ => List.forall_mem_map.1 hcuts⟩

/-- A change that takes only the `\r` of a break leaves breaks of two kinds. -/
example : LineEnding.detect (FileResult.newText
    (.ofScripts "a\r\nb\r\n" [.putting "half" "a\r" "" [] 0 0]) []) = .mixed := by
  cbv

end Execution

end Remedy
