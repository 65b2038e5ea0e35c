import Remedy.Text.Utf8
import Remedy.Text.Utf16
import Remedy.Text.Windows1252
/-!
# The encoding of a file

An encoding is a character set and whether the file began with a byte
order mark. Detection looks for a mark, then tries UTF-8, and guesses at
the rest. The guess is among the four sets here; it is windows-1252, which
reads every byte, if nothing else is said.
-/

namespace Remedy

/-- The character sets that files are read in. -/
inductive Charset where
  | utf8
  | utf16le
  | utf16be
  | windows1252
deriving DecidableEq, Repr, Inhabited

namespace Charset

/-- The registered name. -/
def name : Charset → String
  | .utf8 => "UTF-8"
  | .utf16le => "UTF-16LE"
  | .utf16be => "UTF-16BE"
  | .windows1252 => "windows-1252"

/-- The byte order mark, if the set has one. -/
def mark : Charset → Bytes
  | .utf8 => [0xEF, 0xBB, 0xBF]
  | .utf16le => [0xFF, 0xFE]
  | .utf16be => [0xFE, 0xFF]
  | .windows1252 => []

/-- The bytes of a text, without a mark. -/
def encode : Charset → String → Bytes
  | .utf8 => Utf8.encode
  | .utf16le => Utf16.encode .little
  | .utf16be => Utf16.encode .big
  | .windows1252 => Windows1252.encode

/-- The text of bytes that carry no mark, if every one of them is valid. -/
def decode? : Charset → Bytes → Option String
  | .utf8, bytes => Utf8.decode? bytes
  | .utf16le, bytes => Utf16.decode? .little bytes
  | .utf16be, bytes => Utf16.decode? .big bytes
  | .windows1252, bytes => some (Windows1252.decode bytes)

/-- The set whose mark the bytes begin with, and what follows the mark. -/
def ofMark? : Bytes → Option (Charset × Bytes)
  | 0xEF :: 0xBB :: 0xBF :: rest => some (.utf8, rest)
  | 0xFF :: 0xFE :: rest => some (.utf16le, rest)
  | 0xFE :: 0xFF :: rest => some (.utf16be, rest)
  | _ => none

end Charset

/-- A character set, and whether the file carries its mark. -/
structure TextEncoding where
  charset : Charset
  bom : Bool
deriving DecidableEq, Repr, Inhabited

namespace TextEncoding

/-- Plain UTF-8. -/
def utf8 : TextEncoding := ⟨.utf8, false⟩

/-- **The text of a file and its encoding**, or the character set that the
file was told or guessed to be in and whose rules it breaks. -/
def decode (bytes : Bytes) (guess : Bytes → Charset := fun _ => .windows1252) :
    Except Charset (String × TextEncoding) :=
  match Charset.ofMark? bytes with
  | some (charset, rest) =>
    match charset.decode? rest with
    | some text => .ok (text, ⟨charset, true⟩)
    | none => .error charset
  | none =>
    match Utf8.decode? bytes with
    | some text => .ok (text, utf8)
    | none =>
      match (guess bytes).decode? bytes with
      | some text => .ok (text, ⟨guess bytes, false⟩)
      | none => .error (guess bytes)

/-- The bytes of a text, with the mark if the file has one. -/
def encode (encoding : TextEncoding) (text : String) : Bytes :=
  (if encoding.bom then encoding.charset.mark else []) ++ encoding.charset.encode text

/-- The offset in the decoded text of a byte offset in the file. Only
UTF-8 keeps offsets, past its mark. -/
def textOffset? (encoding : TextEncoding) (raw : Nat) : Option Nat :=
  if encoding.charset ≠ .utf8 then none
  else if encoding.bom then (if 3 ≤ raw then some (raw - 3) else none)
  else some raw

end TextEncoding

end Remedy
