import Remedy.Findings.Finding
import Remedy.Findings.ReportPath
import Remedy.Json.Decode
import Remedy.Json.Printer
/-!
# What a report holds

The findings of one report, whatever its format, and what the formats have
in common.
-/

namespace Remedy

/-- What one report contributes: its tools, its findings, and how many
results had no rule or no place. -/
structure ParsedReport where
  tools : List String
  findings : List Finding
  dropped : Nat
deriving Repr

/-- Why a document is not a report of its format. -/
inductive FormatFault where
  | shape (format : String) (fault : Json.DecodeFault)
  | noRuns
deriving Repr

namespace FormatFault

/-- The wording of a fault. -/
def message : FormatFault → String
  | .shape format fault => s!"document is not {format}: {fault.message}"
  | .noRuns => "SARIF log has no runs"

end FormatFault

namespace ParsedReport

/-- A value as metadata: texts as they are, other values as compact
documents, nothing for `null`. -/
def metadataText? : Json → Option String
  | .string s => some s
  | .null => none
  | value => some value.compact

/-- The metadata that members tell. -/
def metadata (members : List (String × Json)) : List (String × String) :=
  members.filterMap fun (key, value) => (metadataText? value).map (key, ·)

/-- The finding of a report, with its message and metadata. -/
def finding (tool rule raw : String) (root : Path) (location : Location) (severity : Severity)
    (message : Option String) (properties : List (String × Json)) : Finding :=
  { Finding.make tool rule (ReportPath.normalize raw root) location severity with
    message := message, metadata := metadata properties }

end ParsedReport

end Remedy
