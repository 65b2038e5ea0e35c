import Remedy.Json.Decode
import Remedy.Path.Basic
/-!
# Reports that cannot be used

A report that cannot be read, or not as what it claims to be, is told
apart from the others and hinders none of them.
-/

namespace Remedy

/-- A report that could not be used, and why. -/
structure MalformedReport where
  report : Path
  reason : String
deriving DecidableEq, Repr

namespace MalformedReport

/-- The wording for a reader. -/
def message (e : MalformedReport) : String := s!"malformed report {e.report.text}: {e.reason}"

/-- The error as a document. -/
def toJson (e : MalformedReport) : Json :=
  .object [("report", .string e.report.text), ("reason", .string e.reason)]

/-- A path in a document. -/
def pathText : Json.Decoder String
  | .string s => .ok s
  | doc => .error (.wrongType doc "path string")

/-- The error that a document tells of. -/
def ofJson (doc : Json) : Except Json.DecodeFault MalformedReport := do
  let r ← Json.record "struct MalformedReportError" 2 doc
  r.done (((r.required 0 "report" pathText).and (r.required 1 "reason" Json.text)).map
    fun (p, s) => ⟨⟨p⟩, s⟩)

end MalformedReport

end Remedy
