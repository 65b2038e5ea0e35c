/-!
# Spans and positions

A `Span` is a half-open range of byte offsets into the UTF-8 form of a
text, and a `Position` is a line and a column, both counted from zero.
Two relations on spans are told apart: `overlaps`, under which two
insertions at one offset clash, and `touches`, which relates a reported
region to a piece of syntax.
-/

namespace Remedy

/-- A half-open range of byte offsets. Nothing forces `start ≤ stop`; a
span that runs backwards is empty. -/
structure Span where
  start : Nat
  stop : Nat
deriving DecidableEq, Repr, Inhabited

namespace Span

/-- The number of bytes covered. -/
def length (s : Span) : Nat := s.stop - s.start

/-- A span that covers no byte. -/
def isEmpty (s : Span) : Bool := s.stop ≤ s.start

/-- The other span lies within this one, end points included. -/
def contains (s t : Span) : Bool := s.start ≤ t.start && t.stop ≤ s.stop

/-- Two spans overlap when they share a byte, when one is an insertion
strictly inside the other, or when both are insertions at one offset. -/
def overlaps (s t : Span) : Bool :=
  match s.isEmpty, t.isEmpty with
  | true, true => s.start == t.start
  | true, false => t.start < s.start && s.start < t.stop
  | false, true => s.start < t.start && t.start < s.stop
  | false, false => s.start < t.stop && t.start < s.stop

/-- Two spans touch when they share a byte, where an empty span counts as
the byte that follows it. -/
def touches (s t : Span) : Bool :=
  match s.isEmpty, t.isEmpty with
  | true, true => s.start == t.start
  | true, false => t.start ≤ s.start && s.start < t.stop
  | false, true => s.start ≤ t.start && t.start < s.stop
  | false, false => s.start < t.stop && t.start < s.stop

/-- Spans are ordered by start, then by end. -/
def order (s t : Span) : Ordering :=
  (compare s.start t.start).then (compare s.stop t.stop)

instance : Ord Span := ⟨order⟩

/-- The order as a test, for sorting. -/
def le (s t : Span) : Bool := (s.order t).isLE

/-- The span moved right by `n` bytes. -/
def shift (s : Span) (n : Nat) : Span := ⟨s.start + n, s.stop + n⟩

end Span

/-- A place in a text: line and column, both from zero. -/
structure Position where
  line : Nat
  column : Nat
deriving DecidableEq, Repr, Inhabited

namespace Position

/-- Positions are ordered by line, then by column. -/
def order (p q : Position) : Ordering :=
  (compare p.line q.line).then (compare p.column q.column)

instance : Ord Position := ⟨order⟩

/-- The later of two positions. -/
def later (p q : Position) : Position := if (p.order q).isLT then q else p

end Position

/-- What a column counts: characters, or UTF-16 code units. -/
inductive ColumnUnit where
  | chars
  | utf16
deriving DecidableEq, Repr, Inhabited

namespace ColumnUnit

/-- How many units a character takes. -/
def width : ColumnUnit → Char → Nat
  | .chars, _ => 1
  | .utf16, c => if c.val < 0x10000 then 1 else 2

/-- The byte offset of a column within one line. A column inside a
surrogate pair moves to the character after it, and a column past the end
stops at the end of the line. -/
def byteOffset (unit : ColumnUnit) : List Char → Nat → Nat
  | [], _ => 0
  | c :: line, column =>
    if column = 0 then 0 else c.utf8Size + unit.byteOffset line (column - unit.width c)

/-- Characters come before UTF-16 units. -/
def order : ColumnUnit → ColumnUnit → Ordering
  | .chars, .utf16 => .lt
  | .utf16, .chars => .gt
  | _, _ => .eq

instance : Ord ColumnUnit := ⟨order⟩

end ColumnUnit

end Remedy
