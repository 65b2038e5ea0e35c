import Remedy.Json.Basic
import Remedy.Text.Encoding
import Remedy.Text.Span
/-!
# Places as documents

The written forms of spans, positions and encodings.
-/

namespace Remedy

/-- A span as a document. -/
def Span.toJson (span : Span) : Json :=
  .object [("start", .nat span.start), ("end", .nat span.stop)]

/-- A position as a document. -/
def Position.toJson (p : Position) : Json :=
  .object [("line", .nat p.line), ("column", .nat p.column)]

/-- An encoding as a document. -/
def TextEncoding.toJson (e : TextEncoding) : Json :=
  .object [("name", .string e.charset.name), ("bom", .bool e.bom)]

end Remedy
