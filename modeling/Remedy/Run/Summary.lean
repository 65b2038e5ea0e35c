import Remedy.Decimal.Shortest
import Remedy.Run.Report
/-!
# The summary of a run

What a run prints at its end: where it ran, what it did with each file,
and the totals. More is told on demand.
-/

namespace Remedy

namespace Summary

/-- A ruled line. -/
def rule : String := String.ofList (List.replicate 64 '─')

/-- A tenth of a unit at most off: a fraction rounded to tenths, a half to
the even neighbour. -/
def tenths (numerator denominator : Nat) : Nat :=
  let whole := numerator * 10 / denominator
  let twice := 2 * (numerator * 10 % denominator)
  if denominator < twice ∨ (twice = denominator ∧ whole % 2 = 1) then whole + 1 else whole

/-- Milliseconds as seconds with one decimal. The double nearest to the
seconds is what is rounded. -/
def seconds (milliseconds : Nat) : String :=
  let n := match FloatParts.ofFloat ((UInt64.ofNat milliseconds).toFloat / 1000.0) with
    | .finite _ m e =>
      if 0 ≤ e then tenths (m * Power.two e.toNat) 1 else tenths m (Power.two (-e).toNat)
    | _ => 0
  s!"{n / 10}.{n % 10}"

/-- The lines above those of the files. -/
def header (report : Report) : List String :=
  ["", s!"codefixer v{RunInfo.version}", rule, "",
    s!"  Project:  {report.run.root.text}",
    s!"  Reports:  {report.run.reports.length} ingested, {report.reportErrors.length} malformed",
    s!"  Run completed in {seconds report.run.elapsed}s"] ++
    (if report.run.cancelled then ["  Cancelled: partial change-set"] else []) ++
    ["", rule, ""]

/-- The lines of the changes of a file. -/
def changeLines (verbose : Bool) (file : FileResult) : List String :=
  let count := file.changes.length
  let plural := if count = 1 then "" else "s"
  if !file.isChanged then []
  else
    s!"  FIXED {file.path.text} ({count} change{plural})" ::
      (if verbose then
        file.changes.map fun c => s!"           line {c.start.line + 1}: {c.codemod}"
      else [])

/-- The line of a skip. -/
def skipLine (skip : Skip) : String :=
  let detail := match skip.detail with
    | some d => s!": {d}"
    | none => ""
  s!"           {skip.reason.name}{detail}"

/-- The lines of the skips of a file. -/
def skipLines (verbose : Bool) (file : FileResult) : List String :=
  if file.skipped.isEmpty ∨ (!verbose ∧ file.isChanged) then []
  else
    s!"  SKIP {file.path.text} ({file.skipped.length} skipped)" ::
      (if verbose then file.skipped.map skipLine else [])

/-- The line of an error of a file. -/
def errorLine (file : FileResult) (error : FileError) : String :=
  let message := match error with
    | .parse e => e.message
    | .change codemod _ _ failure => s!"[{codemod}] {failure.message}"
  s!"  ERROR {file.path.text} {message}"

/-- The lines of a file. -/
def fileLines (verbose : Bool) (file : FileResult) : List String :=
  changeLines verbose file ++ skipLines verbose file ++ file.errors.map (errorLine file)

/-- The lines below those of the files. -/
def footer (report : Report) (output : Path) (written : Option Nat) : List String :=
  let t := report.totals
  ["", rule, "", "  SUMMARY",
    s!"    {t.filesScanned} files scanned, {t.filesChanged} changed ({t.hunks} hunks)",
    s!"    {t.findingsIngested} findings: {t.findingsAddressed} addressed, {t.findingsSkipped} skipped"] ++
    (if 0 < t.errors then [s!"    {t.errors} errors"] else []) ++
    (if 0 < t.resolutionGaps then [s!"    {t.resolutionGaps} unresolved type references"] else []) ++
    [s!"    Change-set written to {output.text}"] ++
    (match written with
      | some n => [s!"    {n} files rewritten on disk"]
      | none =>
        if 0 < t.filesChanged then ["    Dry run: pass --write to apply the changes"] else []) ++
    [""]

/-- **The summary of a report** that was written to `output`, where
`written` tells how many files were changed on disk. -/
def text (verbose : Bool) (report : Report) (output : Path) (written : Option Nat) : String :=
  let lines := header report ++
    report.reportErrors.map (fun e => s!"  REPORT {e.message}") ++
    report.files.flatMap (fileLines verbose) ++ footer report output written
  String.join (lines.map (· ++ "\n"))

end Summary

end Remedy
