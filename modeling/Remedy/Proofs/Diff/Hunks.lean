import Mathlib
import Remedy.Proofs.Diff.Replay
import Remedy.Proofs.Text.Numbering
/-!
# Hunks between unchanged lines

The hunks of a diff stand apart: joined changes touch in at most one text
(`isChain_joinChanges`), and as the text between two of them is the same in
both, there is at least one line between them in both
(`Changes.pairwise`). A change behind the last line only happens in a
text that is empty or ends in a break, since all new lines but the last one
have a break (`Changes.endsInBreak`). So the line index numbers the lines of
each hunk as the diff does (`Diff.tells_hunkOf`).
-/

namespace Remedy

/-- The number of the first line behind the range. -/
def LineRange.stop (r : LineRange) : Nat := r.start + r.count

/-- **What a way to compare texts is taken to do for two texts**: their
lines are the whole lines, and the steps lead from the ones to the others,
each over a line at least. -/
structure Differ.Tiles (differ : Differ) (original transformed : String) : Prop where
  wholeOriginal : Diff.WholeLines original (differ.linesOf original)
  wholeTransformed : Diff.WholeLines transformed (differ.linesOf transformed)
  leads : Diff.Leads (differ.pair original transformed) 0 0
    (differ.steps (differ.pair original transformed))
  covers : ∀ s ∈ differ.steps (differ.pair original transformed),
    s.oldStart < s.oldStop ∨ s.newStart < s.newStop

namespace DiffHunk

/-- **A hunk ends ahead of another one**, with a line between them in both
texts. -/
def Ahead (h k : DiffHunk) : Prop :=
  h.originalLines.stop < k.originalLines.start ∧
    h.transformedLines.stop < k.transformedLines.start

/-- **A hunk tells what it stands for**: the original text at its span, and
the lines of both texts that it names, not both empty; and the line index
has its span start where the first of its lines does. -/
structure Tells (original : String) (lines : LinePair) (h : DiffHunk) : Prop where
  slice : Text.slice? original h.span = some h.original
  original_eq : h.original = Diff.textOf lines.old h.originalLines.start h.originalLines.stop
  original_le : h.originalLines.stop ≤ lines.old.size
  replacement_eq :
    h.replacement = Diff.textOf lines.new h.transformedLines.start h.transformedLines.stop
  replacement_le : h.transformedLines.stop ≤ lines.new.size
  nonempty : h.original ≠ "" ∨ h.replacement ≠ ""
  position : (LineIndex.ofText original).position h.span.start = ⟨h.originalLines.start, 0⟩

end DiffHunk

/-- **A diff is exact for two texts**: it has no hunks just if the texts are
equal, its hunks lead from the one to the other, each ahead of those that
follow it, and tell what they stand for. -/
structure FileDiff.Exact (original transformed : String) (diff : FileDiff) : Prop where
  hunks_eq_nil_iff : diff.hunks = [] ↔ original = transformed
  applyAll? : DiffHunk.applyAll? original diff.hunks = some transformed
  ahead : diff.hunks.Pairwise DiffHunk.Ahead
  tells : ∀ hunk ∈ diff.hunks,
    hunk.Tells original ⟨Diff.linesOf original, Diff.linesOf transformed⟩

namespace Diff

variable {lines : LinePair} {i j a b : Nat} {ls : Array String} {changes : List DiffStep}

/-! ## Text of at least one line -/

/-- The text of a line. -/
theorem textOf_succ (h : a < ls.size) : textOf ls a (a + 1) = ls[a] := by
  have hline : (ls.extract a (a + 1)).toList = [ls[a]] := by
    rw [Array.toList_extract, List.extract_eq_take_drop, Nat.add_sub_cancel_left,
      List.take_one_drop_eq_of_lt_length (by simpa using h)]
    rfl
  rw [textOf, hline, String.join_cons, String.join_nil, String.append_empty]

/-- **At least one line is at least one character.** -/
theorem textOf_ne_empty (hls : ∀ line ∈ ls, line ≠ "") (hab : a < b) (hb : b ≤ ls.size) :
    textOf ls a b ≠ "" := by
  intro hempty
  rw [← textOf_append ls (Nat.le_succ a) hab, textOf_succ (hab.trans_le hb)] at hempty
  exact hls _ (Array.getElem_mem _) (String.append_eq_empty_iff.1 hempty).1

/-- Lines that are not the last ones end in a break. -/
theorem endsInBreak_textOf {text : String} (hab : a < b) (hb : b < (linesOf text).size) :
    Text.EndsInBreak (textOf (linesOf text) a b) := by
  obtain ⟨k, rfl⟩ : ∃ k, b = k + 1 := ⟨b - 1, by omega⟩
  rw [← textOf_append _ (Nat.le_of_lt_succ hab) (Nat.le_succ k), textOf_succ (Nat.lt_of_succ_lt hb)]
  exact (endsInBreak_getElem hb).append

/-! ## Changes that stand apart -/

/-- Two changes that touch each other in at most one text. -/
def TouchLess (c d : DiffStep) : Prop := ¬ (c.oldStop = d.oldStart ∧ c.newStop = d.newStart)

/-- Two changes with lines between them in both texts. -/
def Apart (c d : DiffStep) : Prop := c.oldStop < d.oldStart ∧ c.newStop < d.newStart

/-- The first of joined changes starts where the first change does. -/
theorem starts_joinChanges (c : DiffStep) (changes : List DiffStep) :
    ∀ d ∈ (joinChanges (c :: changes)).head?,
      d.oldStart = c.oldStart ∧ d.newStart = c.newStart := by
  induction changes generalizing c with
  | nil =>
    intro d hd
    rw [joinChanges] at hd
    · cases hd
      exact ⟨rfl, rfl⟩
    · simp
  | cons d changes ih =>
    rw [joinChanges]
    split
    · exact ih _
    · rintro _ ⟨⟩
      exact ⟨rfl, rfl⟩

/-- **Joined changes touch each other in at most one text.** -/
theorem isChain_joinChanges (changes : List DiffStep) :
    (joinChanges changes).IsChain TouchLess := by
  induction changes using joinChanges.induct with
  | case1 c d rest htouch ih =>
    rw [joinChanges, if_pos htouch]
    exact ih
  | case2 c d rest hapart ih =>
    rw [joinChanges, if_neg hapart, List.isChain_cons]
    refine ⟨fun e he => ?_, ih⟩
    obtain ⟨hold, hnew⟩ := starts_joinChanges d rest e he
    rw [TouchLess, hold, hnew]
    exact hapart
  | case3 changes hshort =>
    rw [joinChanges]
    · rcases changes with _ | ⟨c, _ | ⟨d, rest⟩⟩
      · exact .nil
      · exact .singleton c
      · exact absurd rfl (hshort c d rest)
    · exact hshort

/-- Joining keeps that each change is about a line at least. -/
theorem covers_joinChanges (h : ∀ c ∈ changes, c.oldStart < c.oldStop ∨ c.newStart < c.newStop)
    (hleads : Changes lines i j changes) :
    ∀ c ∈ joinChanges changes, c.oldStart < c.oldStop ∨ c.newStart < c.newStop := by
  induction changes using joinChanges.induct generalizing i j with
  | case1 c d rest htouch ih =>
    rw [joinChanges, if_pos htouch]
    obtain ⟨hi, hold, hj, hnew, hgap, hi', hold', hj', hnew', -, hrest⟩ := hleads
    have hc := h c List.mem_cons_self
    have hjoined :
        Changes lines i j ({ c with oldStop := d.oldStop, newStop := d.newStop } :: rest) :=
      ⟨hi, hold.trans (hi'.trans hold'), hj, hnew.trans (hj'.trans hnew'), hgap, hrest⟩
    refine ih (fun e he => ?_) hjoined
    rcases List.mem_cons.1 he with rfl | hmem
    · simp only
      omega
    · exact h e (List.mem_cons_of_mem c (List.mem_cons_of_mem d hmem))
  | case2 c d rest hapart ih =>
    rw [joinChanges, if_neg hapart]
    obtain ⟨-, -, -, -, -, hrest⟩ := hleads
    exact List.forall_mem_cons.2 ⟨h c List.mem_cons_self,
      ih (fun e he => h e (List.mem_cons_of_mem c he)) hrest⟩
  | case3 changes hshort =>
    rw [joinChanges]
    · exact h
    · exact hshort

/-- No change starts ahead of where the changes do. -/
theorem Changes.le_start (h : Changes lines i j changes) :
    ∀ c ∈ changes, i ≤ c.oldStart ∧ j ≤ c.newStart := by
  induction changes generalizing i j with
  | nil =>
    intro c hc
    cases hc
  | cons d changes ih =>
    obtain ⟨hi, hold, hj, hnew, -, hrest⟩ := h
    refine List.forall_mem_cons.2 ⟨⟨hi, hj⟩, fun c hc => ?_⟩
    have hlater := ih hrest c hc
    omega

/-- **Changes that touch each other in at most one text stand apart in
both**, as the text between them is the same and no line is empty. -/
theorem Changes.pairwise (h : Changes lines i j changes) (hold : ∀ line ∈ lines.old, line ≠ "")
    (hnew : ∀ line ∈ lines.new, line ≠ "") (hchain : changes.IsChain TouchLess) :
    changes.Pairwise Apart := by
  induction changes generalizing i j with
  | nil => exact .nil
  | cons c changes ih =>
    obtain ⟨-, -, -, -, -, hrest⟩ := h
    rw [List.isChain_cons] at hchain
    refine List.pairwise_cons.2 ⟨?_, ih hrest hchain.2⟩
    cases changes with
    | nil => exact nofun
    | cons d changes =>
      obtain ⟨hi, hdold, hj, hdnew, hgap, hlater⟩ := hrest
      have hsize := hlater.le_size
      have hless : ¬ (c.oldStop = d.oldStart ∧ c.newStop = d.newStart) := hchain.1 d rfl
      -- a line in one text is some text, which is in the other one as well
      have hapart : Apart c d := by
        rcases hi.lt_or_eq with hlt | heq
        · refine ⟨hlt, hj.lt_of_ne fun hno => ?_⟩
          rw [hno, textOf_self] at hgap
          exact textOf_ne_empty hold hlt (hdold.trans hsize.1) hgap
        · have hlt : c.newStop < d.newStart := hj.lt_of_ne fun hno => hless ⟨heq, hno⟩
          rw [heq, textOf_self] at hgap
          exact absurd hgap.symm (textOf_ne_empty hnew hlt (hdnew.trans hsize.2))
      refine List.forall_mem_cons.2 ⟨hapart, fun e he => ?_⟩
      have hbehind := hlater.le_start e he
      exact ⟨hapart.1.trans_le (hdold.trans hbehind.1), hapart.2.trans_le (hdnew.trans hbehind.2)⟩

/-- **The text ahead of a change** is the same in both texts, from the
start of both or from a line further up. -/
theorem Changes.exists_gap (h : Changes lines i j changes) (happart : changes.Pairwise Apart)
    (hstart : i = 0 ∧ j = 0 ∨ ∀ c ∈ changes, i < c.oldStart) :
    ∀ c ∈ changes, ∃ i' j', i' ≤ c.oldStart ∧ j' ≤ c.newStart ∧
      textOf lines.old i' c.oldStart = textOf lines.new j' c.newStart ∧
      (i' = 0 ∧ j' = 0 ∨ i' < c.oldStart) := by
  induction changes generalizing i j with
  | nil =>
    intro c hc
    cases hc
  | cons d changes ih =>
    obtain ⟨hi, -, hj, -, hgap, hrest⟩ := h
    obtain ⟨hbehind, hlater⟩ := List.pairwise_cons.1 happart
    exact List.forall_mem_cons.2
      ⟨⟨i, j, hi, hj, hgap, hstart.imp id fun hlt => hlt d List.mem_cons_self⟩,
        ih hrest hlater (.inr fun c hc => (hbehind c hc).1)⟩

end Diff

/-! ## Exact hunks -/

/-- The hunks of two texts that differ. -/
theorem Diff.hunks_ofTextsBy_of_ne (differ : Differ) (name : String) {original transformed : String}
    (h : original ≠ transformed) : (Diff.ofTextsBy differ name original transformed).hunks =
      Diff.hunksOf (differ.pair original transformed)
        (differ.steps (differ.pair original transformed)) := by
  rw [Diff.ofTextsBy, if_neg h]

namespace Differ.Tiles

variable {differ : Differ} {original transformed name : String}

/-- The lines are those of the diff. -/
theorem pair_eq (h : differ.Tiles original transformed) :
    differ.pair original transformed = ⟨Diff.linesOf original, Diff.linesOf transformed⟩ := by
  rw [Differ.pair, Diff.wholeLines_iff.1 h.wholeOriginal,
    Diff.wholeLines_iff.1 h.wholeTransformed]

/-- Whole lines make up their text. -/
theorem sound (h : differ.Tiles original transformed) : differ.Sound original transformed where
  join_original := by rw [Diff.wholeLines_iff.1 h.wholeOriginal, Diff.join_linesOf]
  join_transformed := by rw [Diff.wholeLines_iff.1 h.wholeTransformed, Diff.join_linesOf]
  leads := h.leads

/-- The changes that the hunks stand for: apart from each other, and each
over a line at least. -/
theorem exists_changes (name : String) (h : differ.Tiles original transformed)
    (hne : original ≠ transformed) : ∃ changes,
      Diff.Changes ⟨Diff.linesOf original, Diff.linesOf transformed⟩ 0 0 changes ∧
      changes.Pairwise Diff.Apart ∧
      (∀ c ∈ changes, c.oldStart < c.oldStop ∨ c.newStart < c.newStop) ∧
      (Diff.ofTextsBy differ name original transformed).hunks =
        changes.map (Diff.hunkOf ⟨Diff.linesOf original, Diff.linesOf transformed⟩) := by
  have hchanges := Diff.changes_of_leads h.leads
  have hcovers := Diff.covers_joinChanges
    (fun c hc => h.covers c (List.mem_of_mem_filter hc)) hchanges
  have hjoined := Diff.changes_joinChanges hchanges
  have hhunks := Diff.hunks_ofTextsBy_of_ne differ name hne
  rw [h.pair_eq] at hjoined hcovers hhunks
  exact ⟨_, hjoined, hjoined.pairwise (fun _ => Diff.ne_empty_of_mem_linesOf)
    (fun _ => Diff.ne_empty_of_mem_linesOf) (Diff.isChain_joinChanges _), hcovers, hhunks⟩

end Differ.Tiles

namespace Diff

variable {original transformed : String} {changes : List DiffStep}

/-- **A change behind the last line** is one of an empty text, or of one
that ends in a break: other than the line ahead of it, the new one ends in a
break for sure, since more new lines follow. -/
theorem Changes.endsInBreak
    (h : Changes ⟨linesOf original, linesOf transformed⟩ 0 0 changes)
    (happart : changes.Pairwise Apart)
    (hcovers : ∀ c ∈ changes, c.oldStart < c.oldStop ∨ c.newStart < c.newStop) :
    ∀ c ∈ changes, c.oldStart = (linesOf original).size →
      original = "" ∨ Text.EndsInBreak original := by
  intro c hc hlast
  obtain ⟨-, holdSize, -, hnewSize⟩ := slices_of_changes h c hc
  obtain ⟨i, j, hi, hj, hgap, hstart⟩ := h.exists_gap happart (.inl ⟨rfl, rfl⟩) c hc
  have hall :
      textOf (linesOf original) 0 i ++ textOf (linesOf original) i c.oldStart = original := by
    rw [textOf_append _ (Nat.zero_le i) hi, hlast, textOf_all, join_linesOf]
  have hnew : c.newStart < (linesOf transformed).size := by
    have hc := hcovers c hc
    simp only at holdSize hnewSize
    omega
  rcases hj.lt_or_eq with hlt | heq
  · -- the new lines ahead of the change are the old ones
    refine .inr ?_
    rw [← hall, hgap]
    exact (endsInBreak_textOf hlt hnew).append
  · rw [heq, textOf_self] at hgap
    rcases hstart with ⟨rfl, -⟩ | hlt
    · left
      rw [← hall, hgap, textOf_self, String.append_empty]
    · exact absurd hgap (textOf_ne_empty (fun _ => ne_empty_of_mem_linesOf) hlt hlast.le)

/-- **The hunk of a change tells what it stands for.** -/
theorem tells_hunkOf (h : Changes ⟨linesOf original, linesOf transformed⟩ 0 0 changes)
    (happart : changes.Pairwise Apart)
    (hcovers : ∀ c ∈ changes, c.oldStart < c.oldStop ∨ c.newStart < c.newStop) :
    ∀ c ∈ changes, (hunkOf ⟨linesOf original, linesOf transformed⟩ c).Tells original
      ⟨linesOf original, linesOf transformed⟩ := by
  intro c hc
  obtain ⟨hold, holdSize, hnew, hnewSize⟩ := slices_of_changes h c hc
  have holdStop : c.oldStart + (c.oldStop - c.oldStart) = c.oldStop := Nat.add_sub_cancel' hold
  have hnewStop : c.newStart + (c.newStop - c.newStart) = c.newStop := Nat.add_sub_cancel' hnew
  refine ⟨?_, ?_, ?_, ?_, ?_, ?_, ?_⟩
  · have hslice := slice?_textOf (linesOf original) hold holdSize
    rwa [textOf_all, join_linesOf] at hslice
  · rw [LineRange.stop, hunkOf, holdStop]
  · rwa [LineRange.stop, hunkOf, holdStop]
  · rw [LineRange.stop, hunkOf, hnewStop]
  · rwa [LineRange.stop, hunkOf, hnewStop]
  · exact (hcovers c hc).imp
      (fun hlt => textOf_ne_empty (fun _ => ne_empty_of_mem_linesOf) hlt holdSize)
      fun hlt => textOf_ne_empty (fun _ => ne_empty_of_mem_linesOf) hlt hnewSize
  · exact position_offsetOf (hold.trans holdSize) (h.endsInBreak happart hcovers c hc)

/-- **No hunks, equal texts.** -/
theorem hunks_ofTextsBy_eq_nil_iff {differ : Differ} {name : String}
    (h : differ.Sound original transformed) :
    (ofTextsBy differ name original transformed).hunks = [] ↔ original = transformed := by
  constructor
  · intro hnone
    have hreplay : DiffHunk.applyAll? original (ofTextsBy differ name original transformed).hunks =
        some transformed := applyAll?_ofTextsBy h
    rw [hnone] at hreplay
    exact Option.some.inj ((Text.sliceFrom?_append "" original).symm.trans hreplay)
  · intro heq
    rw [ofTextsBy, if_pos heq]

/-- **The hunks of a diff are exact.** For any two texts and any way to
compare them that tiles their lines, there are no hunks just if the texts
are equal, and put back into the original text the hunks lead to the
transformed one. Each ends ahead of those that follow it, with a line between
them in both texts, and each tells what it stands for. -/
theorem exact_ofTextsBy {differ : Differ} (name : String)
    (h : differ.Tiles original transformed) :
    (ofTextsBy differ name original transformed).Exact original transformed := by
  refine ⟨hunks_ofTextsBy_eq_nil_iff h.sound, applyAll?_ofTextsBy h.sound, ?_, ?_⟩ <;>
    rcases eq_or_ne original transformed with heq | hne
  · rw [(hunks_ofTextsBy_eq_nil_iff h.sound).2 heq]
    exact .nil
  · obtain ⟨changes, hchanges, happart, -, hhunks⟩ := h.exists_changes name hne
    rw [hhunks]
    refine List.pairwise_map.2 (happart.imp_of_mem fun {c d} hc _ hcd => ?_)
    obtain ⟨hold, -, hnew, -⟩ := slices_of_changes hchanges c hc
    rw [DiffHunk.Ahead, LineRange.stop, LineRange.stop, hunkOf, hunkOf,
      Nat.add_sub_cancel' hold, Nat.add_sub_cancel' hnew]
    exact hcd
  · rw [(hunks_ofTextsBy_eq_nil_iff h.sound).2 heq]
    exact nofun
  · obtain ⟨changes, hchanges, happart, hcovers, hhunks⟩ := h.exists_changes name hne
    rw [hhunks]
    exact List.forall_mem_map.2 (tells_hunkOf hchanges happart hcovers)

/-- A text without a break at its end. -/
def openEnd : String := "one\r\ntwo"

/-- The same text with a line ahead and a break at its end. -/
def closedEnd : String := "zero\rone\r\ntwo\n"

/-- The edit script tiles the lines of both: it keeps one of them, and
changes those ahead of it and behind it. -/
theorem exact_closedEnd :
    Differ.byScript.Tiles openEnd closedEnd ∧
      ((ofTextsBy .byScript "Ends.java" openEnd closedEnd).hunks.map fun h =>
        (h.original, h.replacement)) = [("", "zero\r"), ("two", "two\n")] ∧
      (ofTextsBy .byScript "Ends.java" openEnd closedEnd).Exact openEnd closedEnd := by
  have hwhole : ∀ text, WholeLines text (Differ.byScript.linesOf text) :=
    fun _ => wholeLines_iff.2 rfl
  have hsteps : Differ.byScript.steps (Differ.byScript.pair openEnd closedEnd) =
      [⟨false, 0, 0, 0, 1⟩, ⟨true, 0, 1, 1, 2⟩, ⟨false, 1, 2, 2, 3⟩] := by cbv
  have htiles : Differ.byScript.Tiles openEnd closedEnd := by
    refine ⟨hwhole _, hwhole _, ?_, ?_⟩ <;> rw [hsteps]
    · exact of_decide_eq_true (by cbv)
    · decide
  refine ⟨htiles, ?_, exact_ofTextsBy "Ends.java" htiles⟩
  rw [hunks_ofTextsBy_of_ne _ _ (by decide), hsteps]
  cbv

end Diff

end Remedy
