import Remedy.Codemod.Basic
import Remedy.Text.Blank
import Remedy.Text.Case
/-!
# The codemod for web descriptors

A security constraint that names methods leaves all others open. The
elements that name them are removed: an opening tag with blanks before its
end, letters, blanks and stars, and the closing tag.
-/

namespace Remedy

namespace HttpMethod

/-- What stands in front of the blanks of an opening tag. -/
def opening : List Char := "<http-method".toList

/-- The closing tag. -/
def closing : List Char := "</http-method>".toList

/-- The characters that an element may hold. -/
def isContent (c : Char) : Bool := c.isAlpha || isBlank c || c == '*'

/-- The length in characters of the element at the start of a text. -/
def elementLength? (chars : List Char) : Option Nat :=
  if !opening.isPrefixOf chars then none
  else
    let rest := chars.drop opening.length
    let blanks := rest.takeWhile isBlank
    match rest.drop blanks.length with
    | '>' :: tail =>
      let content := tail.takeWhile isContent
      if content.isEmpty ∨ !closing.isPrefixOf (tail.drop content.length) then none
      else some (opening.length + blanks.length + 1 + content.length + closing.length)
    | _ => none

/-- The elements of a text from a byte offset on, where `skip` more
characters belong to the last one found. -/
def spansFrom (offset skip : Nat) : List Char → List Span
  | [] => []
  | c :: cs =>
    match skip with
    | skip + 1 => spansFrom (offset + c.utf8Size) skip cs
    | 0 =>
      match elementLength? (c :: cs) with
      | some n =>
        let size := Text.byteSize ((c :: cs).take n)
        ⟨offset, offset + size⟩ :: spansFrom (offset + c.utf8Size) (n - 1) cs
      | none => spansFrom (offset + c.utf8Size) 0 cs

/-- **The elements of a text**, from left to right. -/
def spans (text : String) : List Span := spansFrom 0 0 text.toList

end HttpMethod

namespace Codemod

/-- The file is a web descriptor. -/
def isWebDescriptor (unit : SourceUnit) : Bool :=
  unit.language = .xml && unit.path.fileName?.any (Text.sameIgnoringCase "web.xml")

/-- Removes the methods that a security constraint names, so that it
covers all of them. -/
def allMethods : Codemod where
  id := "pixee:java/verb-tampering-jakarta"
  version := "1.0.0"
  summary := "Remove <http-method> entries from web.xml security constraints"
  priority := 0
  rules := ["pixee:java/verb-tampering-jakarta"]
  scans := true
  needsResolution := false
  appliesTo := isWebDescriptor
  locate := fun ctx region =>
    ((HttpMethod.spans ctx.unit.text).filter fun s => region.all s.touches).map (⟨·, []⟩)
  apply := fun ctx site =>
    match ctx.unit.slice? site.span with
    | some removed => .ok ⟨site.span, "", some s!"Removed {Text.trim removed}"⟩
    | none => .error (.causes ["site outside the file"])

end Codemod

end Remedy
