import Mathlib.Logic.Basic
import Remedy.Diff.Hunk
import Remedy.Proofs.Text.Cut
/-!
# A text in pieces

Edits of a text that come in order cut it into pieces: a gap that stays and
a part that gives way, again and again, and a rest. This file shows that
such edits always have pieces (`exists_pieces`), and that putting them in
from left to right (`splice?_pieces`) and one at a time from the last to
the first (`replaceFromLast?_pieces`) both lead to the gaps with the new
parts between them.
-/

namespace Remedy

namespace Text

/-- A text with another one in place of one of its spans. -/
def replace? (text : String) (span : Span) (new : String) : Option String := do
  let before ← slice? text ⟨0, span.start⟩
  let after ← sliceFrom? text span.stop
  return before ++ new ++ after

/-- The edits made one at a time, from the last to the first. -/
def replaceFromLast? (text : String) (edits : List (Span × String)) : Option String :=
  edits.foldr (fun edit done => done.bind fun t => replace? t edit.1 edit.2) (some text)

/-- A part of a text that stays, and a part behind it that gives way to
another one. -/
structure Piece where
  gap : String
  old : String
  new : String
deriving DecidableEq, Repr

namespace Piece

variable {text before rest : String} {cursor : Nat} {ps : List Piece}

/-- The text that pieces are cut from, with what stands behind them. -/
def oldText (rest : String) : List Piece → String
  | [] => rest
  | p :: ps => p.gap ++ p.old ++ oldText rest ps

/-- The text that pieces lead to. -/
def newText (rest : String) : List Piece → String
  | [] => rest
  | p :: ps => p.gap ++ p.new ++ newText rest ps

/-- The edits of pieces that start at a byte offset. -/
def edits (cursor : Nat) : List Piece → List (Span × String)
  | [] => []
  | p :: ps =>
    let start := cursor + p.gap.utf8ByteSize
    let stop := start + p.old.utf8ByteSize
    (⟨start, stop⟩, p.new) :: edits stop ps

/-- The size of a piece and of all ahead of it, as the parts are joined. -/
theorem utf8ByteSize_ahead (before : String) (p : Piece) :
    (before ++ p.gap ++ p.old).utf8ByteSize =
      before.utf8ByteSize + p.gap.utf8ByteSize + p.old.utf8ByteSize := by
  rw [String.utf8ByteSize_append, String.utf8ByteSize_append]

/-- What stands ahead of the pieces stands with the first piece ahead of the
others. -/
theorem append_oldText_cons (before rest : String) (p : Piece) (ps : List Piece) :
    before ++ oldText rest (p :: ps) = before ++ p.gap ++ p.old ++ oldText rest ps := by
  simp only [oldText, String.append_assoc]

/-- The edits put in the new parts, -/
theorem map_snd_edits (cursor : Nat) (ps : List Piece) :
    (edits cursor ps).map Prod.snd = ps.map Piece.new := by
  induction ps generalizing cursor with
  | nil => rfl
  | cons p ps ih => simp only [edits, List.map_cons, ih]

/-- and their spans are those of the old parts. -/
theorem map_slice?_edits (before rest : String) (ps : List Piece) :
    (edits before.utf8ByteSize ps).map (fun e => slice? (before ++ oldText rest ps) e.1) =
      ps.map fun p => some p.old := by
  induction ps generalizing before with
  | nil => rfl
  | cons p ps ih =>
    have hold : slice? (before ++ oldText rest (p :: ps))
        ⟨before.utf8ByteSize + p.gap.utf8ByteSize,
          before.utf8ByteSize + p.gap.utf8ByteSize + p.old.utf8ByteSize⟩ = some p.old := by
      have h := slice?_append (before ++ p.gap) p.old (oldText rest ps)
      rw [String.utf8ByteSize_append] at h
      simpa only [oldText, String.append_assoc] using h
    have hlater := ih (before ++ p.gap ++ p.old)
    rw [utf8ByteSize_ahead, ← append_oldText_cons] at hlater
    simp only [edits, List.map_cons, hold, hlater]

/-- The characters that stay, and those that give way. -/
theorem mem_oldText {c : Char} : c ∈ (oldText rest ps).toList ↔
    (∃ p ∈ ps, c ∈ p.gap.toList ∨ c ∈ p.old.toList) ∨ c ∈ rest.toList := by
  induction ps with
  | nil => simp [oldText]
  | cons p ps ih =>
    simp only [oldText, String.toList_append, List.mem_append, ih, List.mem_cons,
      exists_eq_or_imp, or_assoc]

/-- The piece that stands in the new text. -/
def renewed (p : Piece) : Piece := { p with old := p.new }

/-- What holds of an old text holds of the new one, piece by piece. -/
theorem oldText_map_renewed (rest : String) (ps : List Piece) :
    oldText rest (ps.map renewed) = newText rest ps := by
  induction ps with
  | nil => rfl
  | cons p ps ih => simp only [List.map_cons, oldText, newText, renewed, ih]

theorem mem_newText {c : Char} : c ∈ (newText rest ps).toList ↔
    (∃ p ∈ ps, c ∈ p.gap.toList ∨ c ∈ p.new.toList) ∨ c ∈ rest.toList := by
  rw [← oldText_map_renewed, mem_oldText]
  simp only [List.mem_map, exists_exists_and_eq_and, renewed]

/-- **Left to right**: the pieces put in give the gaps with the new parts
between them. -/
theorem splice?_pieces (before rest : String) (ps : List Piece) :
    splice? (before ++ oldText rest ps) before.utf8ByteSize (edits before.utf8ByteSize ps) =
      some (newText rest ps) := by
  induction ps generalizing before with
  | nil => exact sliceFrom?_append before rest
  | cons p ps ih =>
    have hgap : slice? (before ++ oldText rest (p :: ps))
        ⟨before.utf8ByteSize, before.utf8ByteSize + p.gap.utf8ByteSize⟩ = some p.gap := by
      have h := slice?_append before p.gap (p.old ++ oldText rest ps)
      simpa only [oldText, String.append_assoc] using h
    have hrest := ih (before ++ p.gap ++ p.old)
    rw [utf8ByteSize_ahead, ← append_oldText_cons] at hrest
    simp only [edits, splice?, hgap, hrest, newText]
    rfl

/-- **From the last to the first**: the same text, behind what stands ahead
of the pieces. -/
theorem replaceFromLast?_pieces (before rest : String) (ps : List Piece) :
    replaceFromLast? (before ++ oldText rest ps) (edits before.utf8ByteSize ps) =
      some (before ++ newText rest ps) := by
  induction ps generalizing before with
  | nil => rfl
  | cons p ps ih =>
    have hrest := ih (before ++ p.gap ++ p.old)
    rw [utf8ByteSize_ahead, ← append_oldText_cons] at hrest
    -- what the later edits left alone still stands at its place
    have hbefore : slice? (before ++ p.gap ++ p.old ++ newText rest ps)
        ⟨0, before.utf8ByteSize + p.gap.utf8ByteSize⟩ = some (before ++ p.gap) := by
      have h := slice?_append "" (before ++ p.gap) (p.old ++ newText rest ps)
      simpa [String.append_assoc] using h
    have hafter := sliceFrom?_append (before ++ p.gap ++ p.old) (newText rest ps)
    rw [utf8ByteSize_ahead] at hafter
    simp only [replaceFromLast?, edits, List.foldr_cons] at hrest ⊢
    rw [hrest, Option.bind_some]
    simp only [replace?, hbefore, hafter]
    simp only [newText, ← String.append_assoc]
    rfl

/-- **Edits in order cut the text into pieces**, if they run forwards
between boundaries. -/
theorem exists_pieces (hs : List (Span × String))
    (hforward : ∀ h ∈ hs, h.1.start ≤ h.1.stop)
    (hbound : ∀ h ∈ hs, isBoundary text h.1.start ∧ isBoundary text h.1.stop)
    (horder : hs.Pairwise fun a b => a.1.stop ≤ b.1.start)
    (hahead : ∀ h ∈ hs, before.utf8ByteSize ≤ h.1.start) {tail : String}
    (htext : text = before ++ tail) :
    ∃ ps rest, tail = oldText rest ps ∧ hs = edits before.utf8ByteSize ps := by
  induction hs generalizing before tail with
  | nil => exact ⟨[], tail, rfl, rfl⟩
  | cons h hs ih =>
    obtain ⟨hfirst, hlater⟩ := List.pairwise_cons.1 horder
    have hmem : h ∈ h :: hs := List.mem_cons_self
    -- the text falls apart at both ends of the first edit
    obtain ⟨upto, onward, huptext, hupsize⟩ := isBoundary_iff.1 (hbound h hmem).1
    obtain ⟨gap, hgap, htail⟩ :=
      exists_between (htext.symm.trans huptext) (hupsize ▸ hahead h hmem)
    obtain ⟨behind, after, hbehind, hsize⟩ := isBoundary_iff.1 (hbound h hmem).2
    obtain ⟨old, hold, honward⟩ := exists_between (huptext.symm.trans hbehind)
      (by rw [← hupsize, ← hsize]; exact hforward h hmem)
    have hbefore : before ++ gap ++ old = behind := by rw [hold, hgap]
    have hbeyond : ∀ e ∈ hs, (before ++ gap ++ old).utf8ByteSize ≤ e.1.start := by
      intro e he
      rw [hbefore, ← hsize]
      exact hfirst e he
    have hdivided : text = before ++ gap ++ old ++ after := by rw [hbefore, hbehind]
    obtain ⟨ps, rest, hafter, hedits⟩ := ih (fun e he => hforward e (List.mem_cons_of_mem h he))
      (fun e he => hbound e (List.mem_cons_of_mem h he)) hlater hbeyond hdivided
    refine ⟨⟨gap, old, h.2⟩ :: ps, rest, ?_, ?_⟩
    · rw [htail, honward, hafter, oldText, String.append_assoc]
    · have hstart : h.1.start = before.utf8ByteSize + gap.utf8ByteSize := by
        rw [hupsize, hgap, String.utf8ByteSize_append]
      have hstop : h.1.stop = before.utf8ByteSize + gap.utf8ByteSize + old.utf8ByteSize := by
        rw [hsize, ← hbefore, utf8ByteSize_ahead before ⟨gap, old, h.2⟩]
      rw [utf8ByteSize_ahead before ⟨gap, old, h.2⟩] at hedits
      simp only [edits]
      rw [← hedits, ← hstop, ← hstart]

end Piece

end Text

end Remedy
