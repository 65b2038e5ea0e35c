/-!
# Edit scripts over lines

A script leads from the lines of one text to those of another: it keeps
lines, deletes old ones and inserts new ones. Every edit tells where it
stands in both texts.
-/

namespace Remedy

/-- What an edit does with its lines. -/
inductive EditKind where
  | keep
  | delete
  | insert
deriving DecidableEq, Repr

/-- One edit: where it stands among the old and the new lines, and how many
lines it is about. -/
structure Edit where
  kind : EditKind
  oldStart : Nat
  newStart : Nat
  length : Nat
deriving DecidableEq, Repr

namespace Edit

/-- The first old line behind the edit. -/
def oldStop (e : Edit) : Nat := if e.kind = .insert then e.oldStart else e.oldStart + e.length

/-- The first new line behind the edit. -/
def newStop (e : Edit) : Nat := if e.kind = .delete then e.newStart else e.newStart + e.length

/-- The edit `n` lines further up. -/
def moveUp (e : Edit) (n : Nat) : Edit :=
  { e with oldStart := e.oldStart - n, newStart := e.newStart - n }

/-- The edit `n` lines further down. -/
def moveDown (e : Edit) (n : Nat) : Edit :=
  { e with oldStart := e.oldStart + n, newStart := e.newStart + n }

/-- The edit with `n` lines more at its end. -/
def grow (e : Edit) (n : Nat) : Edit := { e with length := e.length + n }

/-- The edit with `n` lines less at its end. -/
def shrink (e : Edit) (n : Nat) : Edit := { e with length := e.length - n }

/-- The edit with `n` lines more at its start. -/
def growFront (e : Edit) (n : Nat) : Edit := (e.moveUp n).grow n

/-- The edit with `n` lines less at its start. -/
def shrinkFront (e : Edit) (n : Nat) : Edit := (e.moveDown n).shrink n

end Edit

/-- The lines of two texts, each with its break. -/
structure LinePair where
  old : Array String
  new : Array String
deriving Repr

namespace LinePair

/-- An old and a new line that are equal. -/
def same (lines : LinePair) (i j : Nat) : Bool :=
  match lines.old[i]?, lines.new[j]? with
  | some a, some b => a == b
  | _, _ => false

/-- How many of at most `room` lines from `i` and `j` on are equal. -/
def commonDown (lines : LinePair) (i j : Nat) : Nat → Nat
  | 0 => 0
  | room + 1 => if lines.same i j then lines.commonDown (i + 1) (j + 1) room + 1 else 0

/-- How many of at most `room` lines that end ahead of `i` and `j` are
equal. -/
def commonUp (lines : LinePair) (i j : Nat) : Nat → Nat
  | 0 => 0
  | room + 1 => if lines.same (i - 1) (j - 1) then lines.commonUp (i - 1) (j - 1) room + 1 else 0

end LinePair

end Remedy
