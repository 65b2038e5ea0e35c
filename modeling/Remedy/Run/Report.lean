import Remedy.Change.FileResult
import Remedy.Findings.Ingest
import Remedy.Run.Timestamp
/-!
# The change-set

The outcome of a run: how it was made, what became of each file that there
is something to tell about, which findings met no file, and totals.
-/

namespace Remedy

/-- Why a finding met no file of the run. -/
inductive UnmatchedReason where
  | excluded
  | missingFile
  | cancelled
deriving DecidableEq, Repr

/-- The name of a reason. -/
def UnmatchedReason.name : UnmatchedReason → String
  | .excluded => "excluded"
  | .missingFile => "missing-file"
  | .cancelled => "cancelled"

/-- A finding that met no file of the run. -/
structure UnmatchedFinding where
  finding : String
  rule : String
  path : Path
  reason : UnmatchedReason
deriving DecidableEq, Repr

namespace UnmatchedFinding

/-- Ordered by path, then by id. -/
def order (a b : UnmatchedFinding) : Ordering :=
  (a.path.order b.path).then (compare a.finding b.finding)

/-- The finding as a document. -/
def toJson (u : UnmatchedFinding) : Json :=
  .object [("finding", .string u.finding), ("rule", .string u.rule), ("path", .string u.path.text),
    ("reason", .string u.reason.name)]

end UnmatchedFinding

/-- How a run was made. -/
structure RunInfo where
  started : Int
  finished : Int
  elapsed : Nat
  root : Path
  includes : List String
  excludes : List String
  reports : List ReportSummary
  codemods : List (String × String)
  symbols : SymbolStats
  cancelled : Bool
deriving Repr

namespace RunInfo

/-- The name of the program. -/
def tool : String := "codefixer"

/-- The version of the program. -/
def version : String := "0.1.0"

/-- The numbers of a symbol table as a document. -/
def symbolsJson (s : SymbolStats) : Json :=
  .object [("files", .nat s.files), ("declarations", .nat s.declarations),
    ("references", .nat s.references), ("resolved", .nat s.resolved), ("gaps", .nat s.gaps)]

/-- The run as a document. -/
def toJson (r : RunInfo) : Json :=
  .object [("tool", .string tool), ("version", .string version),
    ("started_at", .string (Timestamp.text r.started)),
    ("finished_at", .string (Timestamp.text r.finished)), ("elapsed_ms", .nat r.elapsed),
    ("root", .string r.root.text), ("includes", Json.strings r.includes),
    ("excludes", Json.strings r.excludes),
    ("reports", .array (r.reports.map ReportSummary.toJson)),
    ("codemods", .array (r.codemods.map fun (id, version) =>
      .object [("id", .string id), ("version", .string version)])),
    ("symbols", symbolsJson r.symbols), ("cancelled", .bool r.cancelled)]

end RunInfo

/-- The numbers of a run. -/
structure Totals where
  filesScanned : Nat
  filesChanged : Nat
  findingsIngested : Nat
  findingsAddressed : Nat
  findingsSkipped : Nat
  hunks : Nat
  skippedMatches : Nat
  errors : Nat
  resolutionGaps : Nat
deriving DecidableEq, Repr

/-- The totals as a document. -/
def Totals.toJson (t : Totals) : Json :=
  .object [("files_scanned", .nat t.filesScanned), ("files_changed", .nat t.filesChanged),
    ("findings_ingested", .nat t.findingsIngested),
    ("findings_addressed", .nat t.findingsAddressed),
    ("findings_skipped", .nat t.findingsSkipped), ("hunks", .nat t.hunks),
    ("skipped_matches", .nat t.skippedMatches), ("errors", .nat t.errors),
    ("resolution_gaps", .nat t.resolutionGaps)]

/-- The outcome of a run. -/
structure Report where
  run : RunInfo
  totals : Totals
  files : List FileResult
  reportErrors : List MalformedReport
  unmatched : List UnmatchedFinding
deriving Repr

namespace Report

/-- The name of the format. -/
def schema : String := "codefixer/changeset@1"

/-- The result of a path. -/
def file? (report : Report) (path : Path) : Option FileResult :=
  report.files.find? fun f => f.path.same path

/-- The files that something changed in. -/
def changedFiles (report : Report) : List FileResult := report.files.filter FileResult.isChanged

/-- Ids, each once. -/
def distinct (ids : List String) : List String := ids.eraseDups

/-- The totals of a run. -/
def totalsOf (run : RunInfo) (scanned : Nat) (files : List FileResult) (findings : List Finding)
    (reportErrors : List MalformedReport) : Totals :=
  let addressed := files.flatMap fun f => f.changes.flatMap Change.findings
  let ingested := distinct (findings.map Finding.id)
  let total (count : FileResult → Nat) := (files.map count).foldr (· + ·) 0
  let met := (ingested.filter addressed.contains).length
  { filesScanned := scanned
    filesChanged := (files.filter FileResult.isChanged).length
    findingsIngested := ingested.length
    findingsAddressed := met
    findingsSkipped := ingested.length - met
    hunks := total fun f => f.changes.length
    skippedMatches := total fun f => f.skipped.length
    errors := (total fun f => f.errors.length) + reportErrors.length
    resolutionGaps := run.symbols.gaps }

/-- **The outcome of a run** from its parts. Only files that there is
something to tell about are listed, all of them are counted. -/
def aggregate (run : RunInfo) (results : List FileResult) (findings : List Finding)
    (reportErrors : List MalformedReport) (unmatched : List UnmatchedFinding) : Report :=
  let files := (results.filter FileResult.isNoteworthy).mergeSort fun a b =>
    (a.path.order b.path).isLE
  { run := run
    totals := totalsOf run results.length files findings reportErrors
    files := files
    reportErrors := reportErrors
    unmatched := unmatched.mergeSort fun a b => (a.order b).isLE }

/-- The report as a document. -/
def toJson (r : Report) : Json :=
  .object [("schema", .string schema), ("run", r.run.toJson), ("totals", r.totals.toJson),
    ("files", .array (r.files.map FileResult.toJson)),
    ("report_errors", .array (r.reportErrors.map MalformedReport.toJson)),
    ("unmatched_findings", .array (r.unmatched.map UnmatchedFinding.toJson))]

end Report

end Remedy
