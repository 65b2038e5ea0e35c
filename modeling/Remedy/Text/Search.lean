import Remedy.Text.Slice
/-!
# Occurrences in a text

Where a text occurs in another one, from left to right, so that no two
occurrences overlap. The empty text occurs at every boundary.
-/

namespace Remedy

namespace Text

/-- The occurrences from a byte offset on, where `skip` more characters
belong to the last one found. -/
def occurrencesFrom (needle : List Char) (offset : Nat) : Nat → List Char → List Span
  | _, [] => if needle.isEmpty then [⟨offset, offset⟩] else []
  | skip + 1, c :: cs => occurrencesFrom needle (offset + c.utf8Size) skip cs
  | 0, c :: cs =>
    if needle.isPrefixOf (c :: cs) then
      ⟨offset, offset + byteSize needle⟩ ::
        occurrencesFrom needle (offset + c.utf8Size) (needle.length - 1) cs
    else occurrencesFrom needle (offset + c.utf8Size) 0 cs

/-- **The occurrences of a text in another one.** -/
def occurrences (text needle : String) : List Span :=
  occurrencesFrom needle.toList 0 0 text.toList

end Text

end Remedy
