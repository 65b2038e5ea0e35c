import Remedy.Path.Basic
import Remedy.Text.Blank
import Remedy.Text.Bytes
/-!
# File references of reports

A report names a file by a path or by a `file://` reference, perhaps with
escapes such as `%20`. It becomes a path below the root of the project
when it lies there.
-/

namespace Remedy

namespace ReportPath

/-- The bytes without escapes. An escape is a percent sign and two
hexadecimal digits. -/
def unescape : Bytes → Bytes
  | 37 :: hi :: lo :: rest =>
    match Hex.value? (Char.ofNat hi.toNat), Hex.value? (Char.ofNat lo.toNat) with
    | some h, some l => UInt8.ofNat (16 * h + l) :: unescape rest
    | _, _ => 37 :: unescape (hi :: lo :: rest)
  | b :: rest => b :: unescape rest
  | [] => []

/-- The text without escapes. Bytes that are no text are replaced. -/
def decode (text : String) : String := Utf8.repair (unescape (Utf8.encode text))

/-- The text past the mark of a file reference. -/
def withoutScheme (text : String) : String :=
  let chars := text.toList
  let scheme := "file://".toList
  if scheme.isPrefixOf chars then String.ofList (chars.drop scheme.length) else text

/-- **The path that a report means**: without superfluous parts, and
relative to the root if it lies below it. -/
def normalize (raw : String) (root : Path) : Path :=
  let path : Path := ⟨decode (withoutScheme (Text.trim raw))⟩
  let parts := if path.isAbsolute then (path.under? root).getD path.components else path.components
  Path.ofComponents (parts.filter (· ≠ .current))

end ReportPath

end Remedy
