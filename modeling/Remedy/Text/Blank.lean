/-!
# White space

The characters with the Unicode property White_Space, and trimming by it.
-/

namespace Remedy

/-- The Unicode property White_Space. -/
def isBlank (c : Char) : Bool :=
  let n := c.toNat
  (9 ≤ n && n ≤ 13) || n == 0x20 || n == 0x85 || n == 0xA0 || n == 0x1680 ||
    (0x2000 ≤ n && n ≤ 0x200A) || n == 0x2028 || n == 0x2029 || n == 0x202F ||
    n == 0x205F || n == 0x3000

namespace Text

/-- The text without the characters of a class at its start. -/
def trimStartWith (p : Char → Bool) (text : String) : String :=
  String.ofList (text.toList.dropWhile p)

/-- The text without the characters of a class at its end. -/
def trimEndWith (p : Char → Bool) (text : String) : String :=
  String.ofList (text.toList.reverse.dropWhile p).reverse

/-- The text without the characters of a class at both ends. -/
def trimWith (p : Char → Bool) (text : String) : String :=
  trimEndWith p (trimStartWith p text)

/-- The text without white space at both ends. -/
def trim (text : String) : String := trimWith isBlank text

end Text

end Remedy
