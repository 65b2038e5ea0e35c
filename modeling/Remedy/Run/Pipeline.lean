import Remedy.Codemod.Selection
import Remedy.Run.Project
import Remedy.Run.Report
/-!
# A run

Reports are ingested and sources read; all units make one symbol table;
then each file is changed on its own. A run that is told to stop finishes
the files it has begun and starts no other.

How long it takes to read or parse a file is left out: nothing here comes to
its time limit, so no file is given up for it.
-/

namespace Remedy

/-- What a run is told beside its project. The limits of time and of threads
are carried along and change nothing here. -/
structure RunSettings where
  includes : List String
  excludes : List String
  fileTimeout : Nat
  maxFileBytes : Nat
  threads : Nat
deriving DecidableEq, Repr

/-- When a run takes place. -/
structure RunClock where
  started : Int
  finished : Int
  elapsed : Nat
deriving DecidableEq, Repr

/-- A clock that stands still. -/
def RunClock.fixed (milliseconds : Int) : RunClock := ⟨milliseconds, milliseconds, 0⟩

/-- A request to stop: whether there was one by the end of the run, and
which files saw it when their turn came. -/
structure Cancellation where
  requested : Bool
  seenBy : Path → Bool

/-- Nobody asks the run to stop. -/
def Cancellation.never : Cancellation := ⟨false, fun _ => false⟩

/-- The run is asked to stop before it starts. -/
def Cancellation.atOnce : Cancellation := ⟨true, fun _ => true⟩

/-- What a run tells while it goes on. -/
inductive RunEvent where
  | filesDiscovered (count : Nat)
  | reportIngested (path : Path) (findings : Nat)
  | reportFailed (path : Path) (reason : String)
  | fileParsed (path : Path) (good : Bool)
  | symbolTableBuilt (declarations gaps : Nat)
  | fileTransformed (path : Path) (changes errors : Nat)
  | cancelled (remaining : Nat)
deriving DecidableEq, Repr

/-- All that decides what becomes of the files of a run. -/
structure Workload where
  units : List SourceUnit
  findings : List Finding
  catalog : Catalog
  active : List Nat
  filter : PathFilter

/-- What became of the files of a run. -/
structure Transformed where
  results : List FileResult
  cancelled : List Path
  symbols : SymbolStats
deriving Repr

namespace Workload

/-- What the planning of a unit works with. -/
def contextOf (w : Workload) (symbols : SymbolTable) (unit : SourceUnit) : PlanContext :=
  ⟨unit, symbols, w.catalog, w.active, w.filter⟩

/-- The findings on the path of a unit. -/
def findingsOn (w : Workload) (unit : SourceUnit) : List Finding :=
  w.findings.filter fun f => f.path.same unit.path

/-- The result of one unit, with the findings on its path. -/
def resultOf (w : Workload) (symbols : SymbolTable) (unit : SourceUnit) : FileResult :=
  FileResult.ofFindings (w.contextOf symbols unit) (w.findingsOn unit)

/-- **What becomes of the files**, but for those that see a request to
stop. -/
def transform (w : Workload) (cancellation : Cancellation) : Transformed :=
  let symbols := SymbolTable.build w.units
  let (stopped, going) := w.units.partition fun u => cancellation.seenBy u.path
  { results := going.map (w.resultOf symbols)
    cancelled := stopped.map SourceUnit.path
    symbols := symbols.stats }

/-- Why a finding met no file, or nothing if it met one. -/
def unmatchedReason? (w : Workload) (t : Transformed) (f : Finding) : Option UnmatchedReason :=
  if t.results.any fun r => r.path.same f.path then none
  else if t.cancelled.any fun p => p.same f.path then some .cancelled
  else if !w.filter.allowsFile f.path then some .excluded
  else some .missingFile

/-- The findings that met no file. -/
def unmatched (w : Workload) (t : Transformed) : List UnmatchedFinding :=
  w.findings.filterMap fun f =>
    (w.unmatchedReason? t f).map fun reason => ⟨f.id, f.rule, f.path, reason⟩

/-- The report on what became of the files. -/
def report (w : Workload) (t : Transformed) (info : RunInfo) (errors : List MalformedReport) :
    Report :=
  Report.aggregate info t.results w.findings errors (w.unmatched t)

end Workload

/-- The events of a run, in order. -/
def runEvents (discovered : Nat) (ingestion : Ingestion) (w : Workload) (t : Transformed) :
    List RunEvent :=
  [.filesDiscovered discovered] ++
    ingestion.reports.map (fun s => .reportIngested s.path s.findings) ++
    ingestion.errors.map (fun e => .reportFailed e.report e.reason) ++
    w.units.map (fun u => .fileParsed u.path u.isTransformable) ++
    [.symbolTableBuilt t.symbols.declarations t.symbols.gaps] ++
    t.results.map (fun r => .fileTransformed r.path r.changes.length r.errors.length) ++
    (if t.cancelled.isEmpty then [] else [.cancelled t.cancelled.length])

/-- **A run over a project.** -/
def runProject (disk : Disk) (root : Path) (reports : List Path) (selection : Selection)
    (catalog : Catalog) (settings : RunSettings) (clock : RunClock)
    (cancellation : Cancellation) (readers : Readers := .standard) :
    Except RunError (Report × List RunEvent) := do
  let project ← Project.ofPath disk root
  let active ← (selection.active catalog).mapError RunError.unknownCodemod
  let filter ← (PathFilter.ofPatterns settings.includes settings.excludes).mapError
    RunError.invalidPattern
  let files := project.discover filter
  let contents := reports.map fun p => (p, (disk.read p).mapError FileFault.message)
  let ingestion := Ingestion.ofReports project.root contents
  let sources := Project.readSources disk project.root settings.maxFileBytes files
  let units := Project.units sources readers
  let w : Workload := ⟨units, ingestion.findings, catalog, active, filter⟩
  let t := w.transform cancellation
  let info : RunInfo :=
    { started := clock.started, finished := clock.finished, elapsed := clock.elapsed
      root := project.root, includes := settings.includes, excludes := settings.excludes
      reports := ingestion.reports
      codemods := (catalog.filter fun c => selection.includes c.id).map fun c => (c.id, c.version)
      symbols := t.symbols, cancelled := cancellation.requested }
  return (w.report t info ingestion.errors, runEvents files.length ingestion w t)

end Remedy
