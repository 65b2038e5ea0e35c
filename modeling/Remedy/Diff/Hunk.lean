import Remedy.Diff.Compact
import Remedy.Diff.Search
import Remedy.Json.Place
import Remedy.Text.Lines
/-!
# Hunks

Edits that follow each other become one hunk: a span of the original text,
in whole lines, and the text in its place. Hunks are put back into a text
from left to right.
-/

namespace Remedy

/-- Lines of a text: the first one and how many. -/
structure LineRange where
  start : Nat
  count : Nat
deriving DecidableEq, Repr

/-- The range as a document. -/
def LineRange.toJson (r : LineRange) : Json :=
  .object [("start", .nat r.start), ("count", .nat r.count)]

/-- Lines of the original text and those in their place. -/
structure DiffHunk where
  span : Span
  originalLines : LineRange
  transformedLines : LineRange
  original : String
  replacement : String
deriving DecidableEq, Repr

/-- The hunk as a document. -/
def DiffHunk.toJson (h : DiffHunk) : Json :=
  .object [("span", h.span.toJson), ("original_lines", h.originalLines.toJson),
    ("transformed_lines", h.transformedLines.toJson), ("original", .string h.original),
    ("replacement", .string h.replacement)]

/-- One step from old lines to new ones: lines that stay, or lines that
give way to others. -/
structure DiffStep where
  isKept : Bool
  oldStart : Nat
  oldStop : Nat
  newStart : Nat
  newStop : Nat
deriving DecidableEq, Repr

namespace Diff

/-- The lines of a text with their breaks. A text that ends in a break has
no line behind it. -/
def linesOf (text : String) : Array String :=
  ((Line.scan text).filter fun line => line.ending.isSome || !line.content.isEmpty).toArray.map
    fun line => String.ofList line.chars

/-- The step of an edit on its own. -/
def stepOf (e : Edit) : DiffStep :=
  ⟨e.kind == .keep, e.oldStart, e.oldStop, e.newStart, e.newStop⟩

/-- An edit that was read, not yet written because the next may join it:
one that keeps, or a deletion and an insertion. -/
structure Pending where
  kept : Option Edit
  deleted : Option Edit
  inserted : Option Edit
deriving Repr

namespace Pending

/-- Nothing was read yet. -/
def none : Pending := ⟨Option.none, Option.none, Option.none⟩

/-- The step of the changes that were read. -/
def change (p : Pending) : List DiffStep :=
  match p.deleted, p.inserted with
  | some d, some i => [⟨false, d.oldStart, d.oldStop, i.newStart, i.newStop⟩]
  | some d, Option.none => [stepOf d]
  | Option.none, some i => [stepOf i]
  | Option.none, Option.none => []

/-- The step of the kept lines that were read. -/
def keep (p : Pending) : List DiffStep := (p.kept.map stepOf).toList

/-- An edit that follows one of its kind. -/
def joined (before : Option Edit) (e : Edit) : Option Edit :=
  match before with
  | some b => some (b.grow e.length)
  | Option.none => some e

end Pending

/-- The steps of a script: kept runs are joined, and so are deletions and
insertions that follow each other. -/
def stepsFrom (p : Pending) : List Edit → List DiffStep
  | [] => p.keep ++ p.change
  | e :: rest =>
    match e.kind with
    | .keep => p.change ++ stepsFrom ⟨Pending.joined p.kept e, none, none⟩ rest
    | .delete => p.keep ++ stepsFrom ⟨none, Pending.joined p.deleted e, p.inserted⟩ rest
    | .insert => p.keep ++ stepsFrom ⟨none, p.deleted, Pending.joined p.inserted e⟩ rest

/-- The steps of a script. -/
def stepsOf (script : List Edit) : List DiffStep := stepsFrom .none script

/-- **The steps from old lines to new ones.** -/
def steps (lines : LinePair) : List DiffStep := stepsOf (compact lines (script lines))

end Diff

/-- A way to compare texts: what their lines are, and which steps lead from
old lines to new ones. -/
structure Differ where
  linesOf : String → Array String
  steps : LinePair → List DiffStep

namespace Differ

/-- Texts compared by a short edit script. -/
def byScript : Differ := ⟨Diff.linesOf, Diff.steps⟩

/-- The lines of two texts. -/
def pair (differ : Differ) (original transformed : String) : LinePair :=
  ⟨differ.linesOf original, differ.linesOf transformed⟩

end Differ

namespace Diff

/-- Joins changes that touch each other in both texts. -/
def joinChanges : List DiffStep → List DiffStep
  | a :: b :: rest =>
    if a.oldStop = b.oldStart ∧ a.newStop = b.newStart then
      joinChanges ({ a with oldStop := b.oldStop, newStop := b.newStop } :: rest)
    else a :: joinChanges (b :: rest)
  | changes => changes
termination_by changes => changes.length

/-- The text of lines from one number up to another. -/
def textOf (lines : Array String) (start stop : Nat) : String :=
  String.join (lines.extract start stop).toList

/-- The byte offset of a line. -/
def offsetOf (lines : Array String) (n : Nat) : Nat := (textOf lines 0 n).utf8ByteSize

/-- The hunk of a change. -/
def hunkOf (lines : LinePair) (c : DiffStep) : DiffHunk :=
  { span := ⟨offsetOf lines.old c.oldStart, offsetOf lines.old c.oldStop⟩
    originalLines := ⟨c.oldStart, c.oldStop - c.oldStart⟩
    transformedLines := ⟨c.newStart, c.newStop - c.newStart⟩
    original := textOf lines.old c.oldStart c.oldStop
    replacement := textOf lines.new c.newStart c.newStop }

/-- The hunks of given steps. -/
def hunksOf (lines : LinePair) (steps : List DiffStep) : List DiffHunk :=
  (joinChanges (steps.filter fun s => !s.isKept)).map (hunkOf lines)

end Diff

/-- A text with other texts put in place of some of its spans, which come
in order. There is none if spans overlap, leave the text or divide a
character. -/
def Text.splice? (original : String) (cursor : Nat) : List (Span × String) → Option String
  | [] => Text.sliceFrom? original cursor
  | (span, new) :: rest => do
    let before ← Text.slice? original ⟨cursor, span.start⟩
    let after ← Text.splice? original span.stop rest
    return before ++ new ++ after

namespace DiffHunk

/-- **The text that hunks lead to.** -/
def applyAll? (original : String) (hunks : List DiffHunk) : Option String :=
  Text.splice? original 0 (hunks.map fun h => (h.span, h.replacement))

end DiffHunk

end Remedy
