import Remedy.Text.Lines
/-!
# The line index

Byte offsets and positions of one text, read off its lines. `position`
answers every offset; `offset?` answers the positions of existing lines,
clamps a column to the end of its line, and maps the start of the line
just past the last one to the end of the text.
-/

namespace Remedy

/-- The lines of a text, ready for look-ups. -/
structure LineIndex where
  lines : List Line
deriving Repr

namespace LineIndex

/-- The index of a text. -/
def ofText (text : String) : LineIndex := ⟨Line.scan text⟩

/-- Where each line starts, the first of them at `start`. -/
def startsFrom (start : Nat) : List Line → List Nat
  | [] => []
  | line :: lines => start :: startsFrom (start + line.size) lines

/-- Where each line starts. -/
def starts (index : LineIndex) : List Nat := startsFrom 0 index.lines

/-- The bytes of the whole text. -/
def size (index : LineIndex) : Nat := (index.lines.map Line.size).foldr (· + ·) 0

/-- The start of a line and the line itself. -/
def line? (index : LineIndex) (n : Nat) : Option (Nat × Line) :=
  (index.starts.zip index.lines)[n]?

/-- The content of a line, without its break. -/
def lineSpan? (index : LineIndex) (n : Nat) : Option Span :=
  (index.line? n).map fun (start, line) => ⟨start, start + Text.byteSize line.content⟩

/-- **The byte offset of a position.** -/
def offset? (index : LineIndex) (p : Position) (unit : ColumnUnit) : Option Nat :=
  if p.line = index.lines.length then
    if p.column = 0 then some index.size else none
  else
    (index.line? p.line).map fun (start, line) => start + unit.byteOffset line.content p.column

/-- The position of an offset counted from the start of line `n`. -/
def positionFrom (n : Nat) (offset : Nat) : List Line → Position
  | [] => ⟨n, 0⟩
  | [line] => ⟨n, Text.countWithin offset line.chars⟩
  | line :: next :: lines =>
    if offset < line.size then ⟨n, Text.countWithin offset line.chars⟩
    else positionFrom (n + 1) (offset - line.size) (next :: lines)

/-- **The position of a byte offset.** An offset inside a character counts
as the start of that character, and one past the end as the end. -/
def position (index : LineIndex) (offset : Nat) : Position :=
  positionFrom 0 offset index.lines

end LineIndex

end Remedy
