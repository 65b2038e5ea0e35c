import Remedy.Text.Span
/-!
# Cutting a text at byte offsets

A cut is allowed only between two characters. `Text.slice?` answers the
part of a text under a span, and nothing for a span that runs backwards,
leaves the text or divides a character.
-/

namespace Remedy

namespace Text

/-- Whether a byte offset falls between two characters of the text, or at
one of its ends. -/
def isBoundary (text : String) (offset : Nat) : Bool :=
  (String.Pos.Raw.mk offset).isValid text

/-- **The part of a text under a span**, if the span runs forwards and both
ends fall between characters. -/
def slice? (text : String) (span : Span) : Option String :=
  if h : span.start ≤ span.stop ∧ (String.Pos.Raw.mk span.start).IsValid text ∧
      (String.Pos.Raw.mk span.stop).IsValid text then
    some (text.extract (text.pos ⟨span.start⟩ h.2.1) (text.pos ⟨span.stop⟩ h.2.2))
  else
    none

/-- The part of a text from a byte offset to its end. -/
def sliceFrom? (text : String) (start : Nat) : Option String :=
  slice? text ⟨start, text.utf8ByteSize⟩

/-- The size in bytes of a list of characters. -/
def byteSize : List Char → Nat
  | [] => 0
  | c :: cs => c.utf8Size + byteSize cs

/-- How many of the characters fit whole into the first `room` bytes. -/
def countWithin : Nat → List Char → Nat
  | _, [] => 0
  | room, c :: cs => if c.utf8Size ≤ room then countWithin (room - c.utf8Size) cs + 1 else 0

end Text

end Remedy
