import Mathlib
import Remedy.Codemod.BuiltIn
import Remedy.Proofs.Findings.Documents
import Remedy.Run.Pipeline
/-!
# What a run makes of its reports

A run looks at its findings without their severity, message and metadata
(`Workload.transform_withFindings`), and but for these its findings depend on
the set of those that its report documents hold. So a run comes to the same
files and the same unmatched findings in whatever order the documents are
given, however often one is, and whatever malformed ones are among them; and
each of those leads to one more error (`runProject_of_rearranged`).
-/

namespace Remedy

/-! ## Files -/

namespace Plan

theorem ofFinding_bare (ctx : PlanContext) (f : Finding) :
    ofFinding ctx f.bare = ofFinding ctx f := rfl

theorem map_ofFinding_bare (ctx : PlanContext) (findings : List Finding) :
    (findings.map Finding.bare).map (ofFinding ctx) = findings.map (ofFinding ctx) := by
  rw [List.map_map]
  exact List.map_congr_left fun f _ => ofFinding_bare ctx f

/-- **A plan looks at bare findings.** -/
theorem ofFindings_bare (ctx : PlanContext) (findings : List Finding) :
    ofFindings ctx (findings.map Finding.bare) = ofFindings ctx findings := by
  have hbids : bids ctx (findings.map Finding.bare) = bids ctx findings := by
    rw [bids, bids, map_ofFinding_bare]
  have hsifted : sifted ctx (findings.map Finding.bare) = sifted ctx findings := by
    rw [sifted, sifted, hbids]
  rw [ofFindings, ofFindings, found, found, turnedAway, turnedAway, hsifted, map_ofFinding_bare]

end Plan

namespace FileResult

/-- **A result looks at bare findings.** -/
theorem ofFindings_bare (ctx : PlanContext) (findings : List Finding) :
    ofFindings ctx (findings.map Finding.bare) = ofFindings ctx findings := by
  have hexecuted : executed ctx (findings.map Finding.bare) = executed ctx findings := by
    rw [executed, executed, Plan.ofFindings_bare]
  have htext : newText ctx (findings.map Finding.bare) = newText ctx findings := by
    rw [newText, newText, hexecuted]
  rw [ofFindings, ofFindings, ofFindingsBy, ofFindingsBy]
  cases ctx.unit.parseError? with
  | some error =>
    simp only [ofFailed, List.map_map]
    rfl
  | none => simp only [ofParsed, hexecuted, htext, Plan.ofFindings_bare]

end FileResult

/-! ## Runs over files -/

/-- **A report says the same as another one** of all files, of unmatched
findings and in its totals, but for a number of errors more, and it has one
error for each of the given documents. -/
structure Report.SaysSame (more : Nat) (malformed : List Path) (report after : Report) : Prop where
  files : after.files = report.files
  unmatched : after.unmatched = report.unmatched
  totals : after.totals = { report.totals with errors := report.totals.errors + more }
  errors : after.reportErrors.map MalformedReport.report = malformed

namespace Workload

variable {w : Workload} {findings : List Finding} {cancellation : Cancellation} {t : Transformed}
variable {info other : RunInfo} {errors more : List MalformedReport}

/-- The same files with other findings. -/
def withFindings (w : Workload) (findings : List Finding) : Workload :=
  { w with findings := findings }

theorem resultOf_withFindings (h : findings.map Finding.bare = w.findings.map Finding.bare)
    (symbols : SymbolTable) (u : SourceUnit) :
    (w.withFindings findings).resultOf symbols u = w.resultOf symbols u := by
  have hfilter : ∀ findings : List Finding,
      (findings.filter fun f => f.path.same u.path).map Finding.bare =
        (findings.map Finding.bare).filter fun f => f.path.same u.path := by
    intro findings
    rw [List.filter_map]
    rfl
  have hon : ((w.withFindings findings).findingsOn u).map Finding.bare =
      (w.findingsOn u).map Finding.bare := by
    rw [findingsOn, findingsOn, hfilter, hfilter]
    exact congrArg _ h
  rw [resultOf, resultOf, ← FileResult.ofFindings_bare, hon, FileResult.ofFindings_bare]
  rfl

/-- **What becomes of the files** depends on the bare findings, -/
theorem transform_withFindings (h : findings.map Finding.bare = w.findings.map Finding.bare) :
    (w.withFindings findings).transform cancellation = w.transform cancellation := by
  have hresult : (w.withFindings findings).resultOf = w.resultOf :=
    funext fun symbols => funext (resultOf_withFindings h symbols)
  rw [transform, transform, hresult]
  rfl

/-- and so does what meets no file. -/
theorem unmatched_withFindings (h : findings.map Finding.bare = w.findings.map Finding.bare) :
    (w.withFindings findings).unmatched t = w.unmatched t := by
  have hbare : ∀ v : Workload, v.unmatched t = (v.findings.map Finding.bare).filterMap fun f =>
      (v.unmatchedReason? t f).map fun reason => ⟨f.id, f.rule, f.path, reason⟩ := by
    intro v
    rw [unmatched, List.filterMap_map]
    rfl
  rw [hbare, hbare]
  exact congrArg _ h

/-- **What a report says** of the same files, with findings that are the same
but for severity, message and metadata. -/
theorem saysSame_withFindings (h : findings.map Finding.bare = w.findings.map Finding.bare)
    (hinfo : other.symbols = info.symbols) {n : Nat} (hlength : more.length = errors.length + n) :
    (w.report (w.transform cancellation) info errors).SaysSame n
      (more.map MalformedReport.report)
      ((w.withFindings findings).report ((w.withFindings findings).transform cancellation) other
        more) := by
  rw [transform_withFindings h]
  have hids : findings.map Finding.id = w.findings.map Finding.id := by
    have hmapped := congrArg (List.map Finding.id) h
    rwa [List.map_map, List.map_map] at hmapped
  have hfindings : (w.withFindings findings).findings = findings := rfl
  constructor
  case files => rfl
  case unmatched =>
    rw [report, report, Report.aggregate, Report.aggregate, unmatched_withFindings h]
  case totals =>
    simp only [report, Report.aggregate, Report.totalsOf, hfindings, hids, hinfo, hlength,
      Nat.add_assoc]
  case errors => rfl

end Workload

/-! ## Runs over projects -/

/-- The documents that paths lead to. -/
def Documents.onDisk (disk : Disk) (reports : List Path) : List Document :=
  reports.map fun p => (p, (disk.read p).mapError FileFault.message)

/-- **Two runs end alike**. -/
inductive RunsAlike (more : Nat) (malformed : List Path) :
    Except RunError (Report × List RunEvent) → Except RunError (Report × List RunEvent) → Prop where
  /-- Both are stopped, and for the same reason. -/
  | stopped (fault : RunError) : RunsAlike more malformed (.error fault) (.error fault)
  /-- Both come to a report, and the reports say the same. -/
  | reported {report after : Report} (events told : List RunEvent)
    (h : report.SaysSame more malformed after) :
    RunsAlike more malformed (.ok (report, events)) (.ok (after, told))

/-- What rearranged documents contribute is the same, but for as many errors
as malformed ones were inserted. -/
theorem Ingestion.ofReports_of_rearranged {root : Path} {n : Nat} {docs others : List Document}
    (h : Documents.Rearranged root n docs others) :
    (ofReports root others).findings.map Finding.bare =
        (ofReports root docs).findings.map Finding.bare ∧
      (ofReports root others).errors.length = (ofReports root docs).errors.length + n := by
  have hgenuine : ∀ docs : List Document, ∀ f ∈ docs.flatMap (contribution root), f.Genuine := by
    intro docs f hf
    obtain ⟨doc, -, hmem⟩ := List.mem_flatMap.1 hf
    exact genuine_of_mem_contribution hmem
  have hlength : ∀ docs : List Document, (ofReports root docs).errors.length =
      docs.countP fun doc => Malformed root doc.2 := by
    intro docs
    rw [← List.length_map MalformedReport.report, report_errors, List.length_map,
      List.countP_eq_length_filter]
  constructor
  · rw [findings_ofReports, findings_ofReports]
    refine Finding.map_bare_deduplicate_congr (hgenuine others) (hgenuine docs) fun b => ?_
    simp only [List.mem_map, h.mem_flatMap_contribution]
  · rw [hlength, hlength, h.countP_malformed]

section

variable (disk : Disk) (project : Project) (selection : Selection) (catalog : Catalog)
variable (settings : RunSettings) (clock : RunClock) (cancellation : Cancellation)
variable (readers : Readers) (active : List Nat) (filter : PathFilter)

/-- The files of a run, with given findings. -/
def Workload.ofRun (findings : List Finding) : Workload :=
  ⟨Project.units (Project.readSources disk project.root settings.maxFileBytes
    (project.discover filter)) readers, findings, catalog, active, filter⟩

/-- How a run was made that ingested reports and built a symbol table. -/
def RunInfo.ofRun (ingestion : Ingestion) (symbols : SymbolStats) : RunInfo :=
  { started := clock.started, finished := clock.finished, elapsed := clock.elapsed
    root := project.root, includes := settings.includes, excludes := settings.excludes
    reports := ingestion.reports
    codemods := (catalog.filter fun c => selection.includes c.id).map fun c => (c.id, c.version)
    symbols := symbols, cancelled := cancellation.requested }

variable {project active filter} {root : Path}

/-- **A run that nothing stops.** -/
theorem runProject_eq_ok (reports : List Path)
    (hproject : Project.ofPath disk root = .ok project)
    (hactive : selection.active catalog = .ok active)
    (hfilter : PathFilter.ofPatterns settings.includes settings.excludes = .ok filter) :
    runProject disk root reports selection catalog settings clock cancellation readers =
      let ingestion := Ingestion.ofReports project.root (Documents.onDisk disk reports)
      let w := Workload.ofRun disk project catalog settings readers active filter
        ingestion.findings
      let t := w.transform cancellation
      .ok (w.report t (RunInfo.ofRun project selection catalog settings clock cancellation
          ingestion t.symbols) ingestion.errors,
        runEvents (project.discover filter).length ingestion w t) := by
  simp only [runProject, hproject, hactive, hfilter, Except.mapError, bind, Except.bind, pure,
    Except.pure]
  rfl

end

/-- **Report documents in any order, and malformed ones among them.** Let the
documents of a run come in another order, let some be listed more than once,
and let any number of malformed ones be inserted. Then what stops the run
stops it as before, and otherwise it comes to a report that says the same of
all files and of unmatched findings, and in its totals but for one error more
for each document inserted. Each malformed document has one entry among the
errors of reports. That is so whatever the files are read with. -/
theorem runProject_of_rearranged {disk : Disk} {root : Path} {project : Project}
    (hproject : Project.ofPath disk root = .ok project) {reports others : List Path} {n : Nat}
    (h : Documents.Rearranged project.root n (Documents.onDisk disk reports)
      (Documents.onDisk disk others))
    (selection : Selection) (catalog : Catalog) (settings : RunSettings) (clock : RunClock)
    (cancellation : Cancellation) (readers : Readers) :
    RunsAlike n
      (((Documents.onDisk disk others).filter fun doc => Malformed project.root doc.2).map Prod.fst)
      (runProject disk root reports selection catalog settings clock cancellation readers)
      (runProject disk root others selection catalog settings clock cancellation readers) := by
  cases hactive : selection.active catalog with
  | error id =>
    simp only [runProject, hproject, hactive, Except.mapError, bind, Except.bind]
    exact .stopped _
  | ok active =>
    cases hfilter : PathFilter.ofPatterns settings.includes settings.excludes with
    | error fault =>
      simp only [runProject, hproject, hactive, hfilter, Except.mapError, bind, Except.bind]
      exact .stopped _
    | ok filter =>
      obtain ⟨hfindings, hlength⟩ := Ingestion.ofReports_of_rearranged h
      rw [runProject_eq_ok disk selection catalog settings clock cancellation readers reports
          hproject hactive hfilter,
        runProject_eq_ok disk selection catalog settings clock cancellation readers others
          hproject hactive hfilter]
      refine .reported _ _ ?_
      -- the other run has the same files, with the findings of its own reports
      let w := Workload.ofRun disk project catalog settings readers active filter
        (Ingestion.ofReports project.root (Documents.onDisk disk reports)).findings
      have htransform := @Workload.transform_withFindings w _ cancellation hfindings
      rw [← Ingestion.report_errors]
      exact @Workload.saysSame_withFindings w _ _ _ _ _ _ hfindings
        (congrArg Transformed.symbols htransform) n hlength

/-- A report with one finding. -/
def oneFinding : Bytes := Utf8.encode ("\x7b\"results\":[\x7b\"check_id\":\"R\",\"path\":\"a.xml\"," ++
  "\"start\":\x7b\"line\":1,\"col\":1\x7d,\"end\":\x7b\"line\":1,\"col\":2\x7d\x7d]\x7d")

/-- A disk with a project, that report, and one that ends too early. -/
def shelf : Disk :=
  ⟨.directory [("p", .directory [("a.xml", .file (Utf8.encode "ab"))]),
    ("good.json", .file oneFinding), ("bad.json", .file (Utf8.encode "["))], ⟨"/"⟩⟩

/-- A run over the project on that disk. -/
def shelfRun (reports : List Path) : Except RunError (Report × List RunEvent) :=
  runProject shelf ⟨"/p"⟩ reports .everything .builtIn ⟨[], [], 1, 100, 1⟩ (.fixed 0) .never

/-- The good report is given twice, and the bad one is one error more. -/
theorem runsAlike_shelf :
    Documents.Rearranged ⟨"/p"⟩ 1 (Documents.onDisk shelf [⟨"/good.json"⟩])
      (Documents.onDisk shelf [⟨"/bad.json"⟩, ⟨"/good.json"⟩, ⟨"/good.json"⟩]) ∧
    (shelfRun [⟨"/good.json"⟩]).isOk ∧
    RunsAlike 1 [⟨"/bad.json"⟩] (shelfRun [⟨"/good.json"⟩])
      (shelfRun [⟨"/bad.json"⟩, ⟨"/good.json"⟩, ⟨"/good.json"⟩]) := by
  have hproject : Project.ofPath shelf ⟨"/p"⟩ =
      .ok ⟨⟨"/p"⟩, .directory [("a.xml", .file (Utf8.encode "ab"))]⟩ := by cbv
  have hgood : (shelf.read ⟨"/good.json"⟩).mapError FileFault.message = .ok oneFinding := by cbv
  have hbad : (shelf.read ⟨"/bad.json"⟩).mapError FileFault.message =
      .ok (Utf8.encode "[") := by cbv
  have hfine : ¬ Malformed ⟨"/p"⟩ (.ok oneFinding) := by decide +kernel
  have hmalformed : Malformed ⟨"/p"⟩ (.ok (Utf8.encode "[")) := by decide +kernel
  have hrearranged : Documents.Rearranged ⟨"/p"⟩ 1 (Documents.onDisk shelf [⟨"/good.json"⟩])
      (Documents.onDisk shelf [⟨"/bad.json"⟩, ⟨"/good.json"⟩, ⟨"/good.json"⟩]) := by
    simp only [Documents.onDisk, List.map_cons, List.map_nil, hgood, hbad]
    have htwice := @Documents.Rearranged.repeated ⟨"/p"⟩ [] [(⟨"/good.json"⟩, .ok oneFinding)]
      ⟨"/good.json"⟩ ⟨"/good.json"⟩ _ List.mem_cons_self hfine
    exact htwice.trans (@Documents.Rearranged.inserted _ [] _ (⟨"/bad.json"⟩, _) hmalformed)
  have hpaths : ((Documents.onDisk shelf
      [⟨"/bad.json"⟩, ⟨"/good.json"⟩, ⟨"/good.json"⟩]).filter
      fun doc => Malformed ⟨"/p"⟩ doc.2).map Prod.fst = [⟨"/bad.json"⟩] := by
    simp only [Documents.onDisk, List.map_cons, List.map_nil, hgood, hbad, List.filter_cons,
      hfine, hmalformed, decide_true, decide_false, if_true, Bool.false_eq_true, if_false,
      List.filter_nil]
  have halike := runProject_of_rearranged hproject hrearranged .everything .builtIn
    ⟨[], [], 1, 100, 1⟩ (.fixed 0) .never .standard
  rw [hpaths] at halike
  refine ⟨hrearranged, ?_, halike⟩
  rw [shelfRun, runProject_eq_ok shelf .everything .builtIn _ _ _ _ [⟨"/good.json"⟩] hproject
    rfl rfl]
  rfl

end Remedy
