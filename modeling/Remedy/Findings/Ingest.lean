import Remedy.Findings.Malformed
import Remedy.Findings.Sarif
import Remedy.Findings.Semgrep
import Remedy.Json.Reader
/-!
# Ingesting reports

Reports are read one by one. One that fails is told and the others count
all the same. The findings of all of them are joined without repetition.
-/

namespace Remedy

/-- What one report contributed, in numbers. -/
structure ReportSummary where
  path : Path
  format : String
  tools : List String
  findings : Nat
  dropped : Nat
deriving Repr

/-- The summary as a document. -/
def ReportSummary.toJson (s : ReportSummary) : Json :=
  .object [("path", .string s.path.text), ("format", .string s.format),
    ("tools", Json.strings s.tools), ("findings", .nat s.findings), ("dropped", .nat s.dropped)]

/-- A format of reports. -/
structure ReportFormat where
  name : String
  detects : Json → Bool
  parse : Path → Json → Except FormatFault ParsedReport

namespace ReportFormat

/-- The formats, in the order in which they are tried. -/
def all : List ReportFormat :=
  [⟨"sarif", Sarif.detects, Sarif.parse⟩, ⟨"semgrep-json", Semgrep.detects, Semgrep.parse⟩]

end ReportFormat

/-- What all reports contributed. -/
structure Ingestion where
  findings : List Finding
  reports : List ReportSummary
  errors : List MalformedReport
deriving Repr

namespace Ingestion

/-- The bytes past a byte order mark. -/
def withoutMark : Bytes → Bytes
  | 0xEF :: 0xBB :: 0xBF :: rest => rest
  | bytes => bytes

/-- One report: its bytes or why they cannot be had, to what it contributes
or why it contributes nothing. -/
def ofReport (root : Path) (path : Path) (content : Except String Bytes) :
    Except MalformedReport (ReportSummary × List Finding) := do
  let bytes ← content.mapError fun reason => ⟨path, s!"unreadable: {reason}"⟩
  let body := withoutMark bytes
  let doc ← (Json.ofBytes body).mapError fun e => ⟨path, s!"invalid JSON: {e.message body}"⟩
  match ReportFormat.all.find? (·.detects doc) with
  | none => throw ⟨path, "unrecognized report format"⟩
  | some format =>
    let parsed ← (format.parse root doc).mapError fun e => ⟨path, e.message⟩
    return (⟨path, format.name, parsed.tools, parsed.findings.length, parsed.dropped⟩,
      parsed.findings)

/-- **What reports contribute**, in their order. -/
def ofReports (root : Path) (reports : List (Path × Except String Bytes)) : Ingestion :=
  let outcomes := reports.map fun (path, content) => ofReport root path content
  { findings := Finding.deduplicate (outcomes.flatMap fun
      | .ok (_, findings) => findings
      | .error _ => [])
    reports := outcomes.filterMap fun
      | .ok (summary, _) => some summary
      | .error _ => none
    errors := outcomes.filterMap fun
      | .ok _ => none
      | .error e => some e }

end Ingestion

end Remedy
