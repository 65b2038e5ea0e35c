/-!
# Case of ASCII letters

Names of levels, tools and file extensions are compared without regard to
the case of the letters `A` to `Z`. Other letters keep their case.
-/

namespace Remedy

namespace Text

/-- The text with small letters for the capital ones of ASCII. -/
def lowerAscii (s : String) : String := String.ofList (s.toList.map Char.toLower)

/-- The text with capital letters for the small ones of ASCII. -/
def upperAscii (s : String) : String := String.ofList (s.toList.map Char.toUpper)

/-- Two texts that differ in the case of ASCII letters at most. -/
def sameIgnoringCase (s t : String) : Bool := lowerAscii s == lowerAscii t

end Text

end Remedy
