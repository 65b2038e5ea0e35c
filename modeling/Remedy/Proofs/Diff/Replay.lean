import Mathlib.Order.Nat
import Remedy.Diff.Unified
import Remedy.Proofs.Text.Pieces
/-!
# Hunks put back

Steps that lead from old lines to new ones (`Diff.Leads`) give hunks that
lead from the old text to the new one. Only the changes among the steps
count, with equal text between them (`Diff.Changes`); joining changes that
touch each other keeps that, and changes are pieces of the text
(`exists_pieces_of_changes`). A way to compare texts is sound for two texts
when its lines make up both and its steps lead from the ones to the others.
-/

namespace Remedy

namespace Diff

/-- **Steps lead from old lines to new ones**: they follow each other
without a gap in both, up to the ends, and lines that are kept are equal. -/
def Leads (lines : LinePair) : Nat → Nat → List DiffStep → Prop
  | i, j, [] => i = lines.old.size ∧ j = lines.new.size
  | i, j, s :: rest =>
    s.oldStart = i ∧ s.newStart = j ∧ i ≤ s.oldStop ∧ j ≤ s.newStop ∧
      (s.isKept → lines.old.extract i s.oldStop = lines.new.extract j s.newStop) ∧
      Leads lines s.oldStop s.newStop rest

instance decidableLeads (lines : LinePair) :
    ∀ i j steps, Decidable (Leads lines i j steps)
  | i, j, [] => inferInstanceAs (Decidable (i = lines.old.size ∧ j = lines.new.size))
  | _, _, s :: rest =>
    have := decidableLeads lines s.oldStop s.newStop rest
    inferInstanceAs (Decidable (_ ∧ _ ∧ _ ∧ _ ∧ (_ → _) ∧ Leads lines s.oldStop s.newStop rest))

/-- Changes in order, with equal text ahead of each of them and behind the
last one. -/
def Changes (lines : LinePair) : Nat → Nat → List DiffStep → Prop
  | i, j, [] =>
    i ≤ lines.old.size ∧ j ≤ lines.new.size ∧
      textOf lines.old i lines.old.size = textOf lines.new j lines.new.size
  | i, j, c :: rest =>
    i ≤ c.oldStart ∧ c.oldStart ≤ c.oldStop ∧ j ≤ c.newStart ∧ c.newStart ≤ c.newStop ∧
      textOf lines.old i c.oldStart = textOf lines.new j c.newStart ∧
      Changes lines c.oldStop c.newStop rest

variable {lines : LinePair} {i j i' j' : Nat} {steps changes : List DiffStep}

/-! ## Text by lines -/

/-- The text of lines falls apart at every line between. -/
theorem textOf_append (ls : Array String) {a b c : Nat} (hab : a ≤ b) (hbc : b ≤ c) :
    textOf ls a b ++ textOf ls b c = textOf ls a c := by
  rw [textOf, textOf, textOf, ← String.join_append, ← Array.toList_append,
    Array.extract_append_extract, Nat.min_eq_left hab, Nat.max_eq_right hbc]

theorem textOf_self (ls : Array String) (a : Nat) : textOf ls a a = "" := by
  have hempty : ls.extract a a = #[] := by
    rw [Array.extract_eq_empty_iff]
    exact Nat.min_le_left a ls.size
  rw [textOf, hempty]
  exact String.join_nil

/-- The offset of a line counts on from that of an earlier one. -/
theorem offsetOf_add (ls : Array String) {a b : Nat} (h : a ≤ b) :
    offsetOf ls a + (textOf ls a b).utf8ByteSize = offsetOf ls b := by
  rw [offsetOf, offsetOf, ← String.utf8ByteSize_append, textOf_append ls (Nat.zero_le a) h]

/-- Whole lines are a slice of the text that they are part of. -/
theorem slice?_textOf (ls : Array String) {a b : Nat} (hab : a ≤ b) (hb : b ≤ ls.size) :
    Text.slice? (textOf ls 0 ls.size) ⟨offsetOf ls a, offsetOf ls b⟩ = some (textOf ls a b) := by
  have h := Text.slice?_append (textOf ls 0 a) (textOf ls a b) (textOf ls b ls.size)
  rw [textOf_append ls (Nat.zero_le a) hab, textOf_append ls (Nat.zero_le b) hb] at h
  have hstop := offsetOf_add ls hab
  rw [offsetOf] at hstop
  rw [hstop] at h
  exact h

/-- All lines of a text make it up. -/
theorem textOf_all (ls : Array String) : textOf ls 0 ls.size = String.join ls.toList := by
  rw [textOf, Array.extract_size]

/-! ## The changes of a script -/

/-- Steps that lead to the end start within both texts. -/
theorem Leads.le_size (h : Leads lines i j steps) : i ≤ lines.old.size ∧ j ≤ lines.new.size := by
  induction steps generalizing i j with
  | nil => exact ⟨le_of_eq h.1, le_of_eq h.2⟩
  | cons s steps ih =>
    obtain ⟨-, -, hi, hj, -, hrest⟩ := h
    have hstop := ih hrest
    exact ⟨hi.trans hstop.1, hj.trans hstop.2⟩

theorem Changes.le_size (h : Changes lines i j changes) :
    i ≤ lines.old.size ∧ j ≤ lines.new.size := by
  induction changes generalizing i j with
  | nil => exact ⟨h.1, h.2.1⟩
  | cons c changes ih =>
    obtain ⟨hi, hold, hj, hnew, -, hrest⟩ := h
    have hstop := ih hrest
    omega

/-- More equal text ahead of changes. -/
theorem Changes.extend (h : Changes lines i' j' changes) (hi : i ≤ i') (hj : j ≤ j')
    (htext : textOf lines.old i i' = textOf lines.new j j') : Changes lines i j changes := by
  cases changes with
  | nil =>
    obtain ⟨hold, hnew, hrest⟩ := h
    refine ⟨hi.trans hold, hj.trans hnew, ?_⟩
    rw [← textOf_append lines.old hi hold, ← textOf_append lines.new hj hnew, htext, hrest]
  | cons c rest =>
    obtain ⟨hold, hold', hnew, hnew', hgap, hrest⟩ := h
    refine ⟨hi.trans hold, hold', hj.trans hnew, hnew', ?_, hrest⟩
    rw [← textOf_append lines.old hi hold, ← textOf_append lines.new hj hnew, htext, hgap]

/-- **What is left of leading steps without the kept lines.** -/
theorem changes_of_leads (h : Leads lines i j steps) :
    Changes lines i j (steps.filter fun s => !s.isKept) := by
  induction steps generalizing i j with
  | nil =>
    obtain ⟨rfl, rfl⟩ := h
    exact ⟨le_rfl, le_rfl, by rw [textOf_self, textOf_self]⟩
  | cons s steps ih =>
    obtain ⟨rfl, rfl, hold, hnew, hkept, hrest⟩ := h
    have hchanges := ih hrest
    by_cases hk : s.isKept
    · rw [List.filter_cons_of_neg (by simp [hk])]
      refine hchanges.extend hold hnew ?_
      rw [textOf, textOf, hkept hk]
    · rw [List.filter_cons_of_pos (by simp [hk])]
      exact ⟨le_rfl, hold, le_rfl, hnew, by rw [textOf_self, textOf_self], hchanges⟩

/-- **Joining changes that touch each other changes nothing.** -/
theorem changes_joinChanges (h : Changes lines i j changes) :
    Changes lines i j (joinChanges changes) := by
  induction changes using joinChanges.induct generalizing i j with
  | case1 a b rest htouch ih =>
    obtain ⟨hi, hold, hj, hnew, hgap, hb⟩ := h
    obtain ⟨hbi, hbold, hbj, hbnew, -, hrest⟩ := hb
    rw [joinChanges, if_pos htouch]
    exact ih ⟨hi, by simp only; omega, hj, by simp only; omega, hgap, hrest⟩
  | case2 a b rest hapart ih =>
    obtain ⟨hi, hold, hj, hnew, hgap, hb⟩ := h
    rw [joinChanges, if_neg hapart]
    exact ⟨hi, hold, hj, hnew, hgap, ih hb⟩
  | case3 changes hshort =>
    rw [joinChanges]
    · exact h
    · exact hshort

/-- The edit of a hunk. -/
def editOf (h : DiffHunk) : Span × String := (h.span, h.replacement)

/-- **Changes are pieces of the old text** that lead to the new one. -/
theorem exists_pieces_of_changes (h : Changes lines i j changes) :
    ∃ ps rest, textOf lines.old i lines.old.size = Text.Piece.oldText rest ps ∧
      textOf lines.new j lines.new.size = Text.Piece.newText rest ps ∧
      changes.map (fun c => editOf (hunkOf lines c)) =
        Text.Piece.edits (offsetOf lines.old i) ps := by
  induction changes generalizing i j with
  | nil => exact ⟨[], textOf lines.old i lines.old.size, rfl, h.2.2.symm, rfl⟩
  | cons c changes ih =>
    obtain ⟨hi, hold, hj, hnew, hgap, hchanges⟩ := h
    obtain ⟨ps, rest, holdText, hnewText, hedits⟩ := ih hchanges
    have hsize := hchanges.le_size
    refine ⟨⟨textOf lines.old i c.oldStart, textOf lines.old c.oldStart c.oldStop,
      textOf lines.new c.newStart c.newStop⟩ :: ps, rest, ?_, ?_, ?_⟩
    · rw [Text.Piece.oldText, ← holdText, textOf_append lines.old hi hold,
        textOf_append lines.old (hi.trans hold) hsize.1]
    · rw [Text.Piece.newText, ← hnewText, hgap, textOf_append lines.new hj hnew,
        textOf_append lines.new (hj.trans hnew) hsize.2]
    · simp only [List.map_cons, Text.Piece.edits, offsetOf_add lines.old hi,
        offsetOf_add lines.old hold, ← hedits]
      rfl

/-- The hunk of each change stands for slices of both texts. -/
theorem slices_of_changes (h : Changes lines i j changes) :
    ∀ c ∈ changes, c.oldStart ≤ c.oldStop ∧ c.oldStop ≤ lines.old.size ∧
      c.newStart ≤ c.newStop ∧ c.newStop ≤ lines.new.size := by
  induction changes generalizing i j with
  | nil =>
    intro c hc
    cases hc
  | cons a changes ih =>
    obtain ⟨-, hold, -, hnew, -, hrest⟩ := h
    have hsize := hrest.le_size
    intro c hc
    rcases List.mem_cons.1 hc with rfl | hmem
    · exact ⟨hold, hsize.1, hnew, hsize.2⟩
    · exact ih hrest c hmem

end Diff

/-! ## Sound comparisons -/

/-- **A way to compare texts is sound for two texts** when its lines make
up both and its steps lead from the ones to the others. -/
structure Differ.Sound (differ : Differ) (original transformed : String) : Prop where
  join_original : String.join (differ.linesOf original).toList = original
  join_transformed : String.join (differ.linesOf transformed).toList = transformed
  leads : Diff.Leads (differ.pair original transformed) 0 0
    (differ.steps (differ.pair original transformed))

namespace Diff

variable {differ : Differ} {original transformed name : String}

/-- The changes that the hunks of a sound comparison stand for. -/
theorem exists_changes (name : String) (h : differ.Sound original transformed)
    (hne : original ≠ transformed) : ∃ changes,
      Changes (differ.pair original transformed) 0 0 changes ∧
      (ofTextsBy differ name original transformed).hunks =
        changes.map (hunkOf (differ.pair original transformed)) := by
  refine ⟨_, changes_joinChanges (changes_of_leads h.leads), ?_⟩
  rw [ofTextsBy, if_neg hne]
  rfl

/-- The old text is that of all old lines, the new one that of all new
ones. -/
theorem texts_of_sound (h : differ.Sound original transformed) :
    textOf (differ.pair original transformed).old 0 (differ.pair original transformed).old.size =
        original ∧
      textOf (differ.pair original transformed).new 0
        (differ.pair original transformed).new.size = transformed := by
  rw [textOf_all, textOf_all]
  exact ⟨h.join_original, h.join_transformed⟩

/-- **Replay.** The hunks of a sound comparison lead from the original text
to the transformed one. -/
theorem applyAll?_ofTextsBy (h : differ.Sound original transformed) :
    DiffHunk.applyAll? original (ofTextsBy differ name original transformed).hunks =
      some transformed := by
  by_cases heq : original = transformed
  · rw [ofTextsBy, if_pos heq, ← heq]
    exact Text.sliceFrom?_append "" original
  · obtain ⟨changes, hchanges, hhunks⟩ := exists_changes name h heq
    obtain ⟨ps, rest, hold, hnew, hedits⟩ := exists_pieces_of_changes hchanges
    rw [(texts_of_sound h).1] at hold
    rw [(texts_of_sound h).2] at hnew
    have hzero :
        offsetOf (differ.pair original transformed).old 0 = ("" : String).utf8ByteSize := by
      rw [offsetOf, textOf_self]
    have hsplice := Text.Piece.splice?_pieces "" rest ps
    rw [← hold, ← hnew, ← hzero, ← hedits, hzero, String.empty_append] at hsplice
    rw [DiffHunk.applyAll?, hhunks, List.map_map]
    exact hsplice

/-- **Hunks are slices** of the original text, and their replacements of the
transformed one. -/
theorem slices_ofTextsBy (h : differ.Sound original transformed) :
    ∀ hunk ∈ (ofTextsBy differ name original transformed).hunks,
      Text.slice? original hunk.span = some hunk.original ∧
        ∃ span, Text.slice? transformed span = some hunk.replacement := by
  intro hunk hmem
  by_cases heq : original = transformed
  · rw [ofTextsBy, if_pos heq] at hmem
    cases hmem
  · obtain ⟨changes, hchanges, hhunks⟩ := exists_changes name h heq
    rw [hhunks, List.mem_map] at hmem
    obtain ⟨c, hc, rfl⟩ := hmem
    obtain ⟨hold, holdSize, hnew, hnewSize⟩ := slices_of_changes hchanges c hc
    have holdSlice := slice?_textOf (differ.pair original transformed).old hold holdSize
    have hnewSlice := slice?_textOf (differ.pair original transformed).new hnew hnewSize
    rw [(texts_of_sound h).1] at holdSlice
    rw [(texts_of_sound h).2] at hnewSlice
    exact ⟨holdSlice, _, hnewSlice⟩

end Diff

end Remedy
