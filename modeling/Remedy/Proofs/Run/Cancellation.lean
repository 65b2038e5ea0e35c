import Mathlib
import Remedy.Proofs.Findings.Deduplicate
import Remedy.Proofs.Run.Visibility
/-!
# Runs that are told to stop

A run that is told to stop gives a part of the report of the run that goes
on: the results of the files that it got to are the same, and in the same
order (`results_transform_filter`, `files_report_filter`). The findings on
other files are unmatched, each once, and the reason tells those on a file
that the request came in the way of from those on files that the run was
never to read (`Unmatched`). Which files see the request is left open, so
this holds whatever the workers do and when.
-/

namespace Remedy

namespace Workload

variable {w : Workload} {cancellation : Cancellation}

/-- The request to stop came before the file of a finding. -/
def IsStopped (w : Workload) (cancellation : Cancellation) (f : Finding) : Prop :=
  ∃ u ∈ w.units, cancellation.seenBy u.path ∧ u.path.same f.path

/-- A file of a finding was processed. -/
def IsProcessed (w : Workload) (cancellation : Cancellation) (f : Finding) : Prop :=
  ∃ r ∈ (w.transform cancellation).results, r.path.same f.path

/-- **Why a finding on no processed file is unmatched.** -/
inductive Unmatched (w : Workload) (cancellation : Cancellation) (f : Finding) :
    UnmatchedReason → Prop
  /-- the request to stop came before its file -/
  | cancelled (hstopped : w.IsStopped cancellation f) : Unmatched w cancellation f .cancelled
  /-- the filter keeps its file from being read -/
  | excluded (hnot : ¬ w.IsStopped cancellation f) (hfilter : ¬ w.filter.allowsFile f.path) :
      Unmatched w cancellation f .excluded
  /-- there is no such file -/
  | missingFile (hnot : ¬ w.IsStopped cancellation f) (hfilter : w.filter.allowsFile f.path) :
      Unmatched w cancellation f .missingFile

/-- A finding has one reason to be unmatched. -/
theorem Unmatched.unique {f : Finding} {reason other : UnmatchedReason}
    (h : w.Unmatched cancellation f reason) (h' : w.Unmatched cancellation f other) :
    reason = other := by
  cases h <;> cases h' <;> first | rfl | contradiction

/-! ### Files -/

/-- Nobody keeps a run from its files that is not told to stop. -/
theorem going_never : w.going .never = w.units :=
  List.filter_eq_self.2 fun _ _ => rfl

/-- **The results are those of the run that goes on**, but for the files
that see the request. -/
theorem results_transform_filter : (w.transform cancellation).results =
    (w.transform .never).results.filter fun r => !cancellation.seenBy r.path := by
  have hpath : (fun r => !cancellation.seenBy r.path) ∘ w.resultOf w.symbolTable =
      fun u => !cancellation.seenBy u.path := by
    funext u
    rw [Function.comp_apply, path_resultOf]
  rw [results_transform, results_transform, going_never, List.filter_map, hpath]
  rfl

/-- The report lists the files of the run that goes on, but for those that
see the request. -/
theorem files_report_filter (info : RunInfo) (errors : List MalformedReport) :
    (w.report (w.transform cancellation) info errors).files =
      (w.report (w.transform .never) info errors).files.filter
        fun r => !cancellation.seenBy r.path := by
  have := transCmp_on Path.order FileResult.path
  simp only [report, Report.aggregate]
  rw [filter_mergeSort fun a b : FileResult => a.path.order b.path, results_transform_filter,
    List.filter_filter, List.filter_filter]
  congr 2
  funext r
  exact Bool.and_comm _ _

/-! ### Findings -/

instance (f : Finding) : Decidable (w.IsProcessed cancellation f) :=
  inferInstanceAs (Decidable (∃ r ∈ (w.transform cancellation).results, r.path.same f.path))

theorem isProcessed_iff {f : Finding} :
    w.IsProcessed cancellation f ↔ w.isMet cancellation f := by
  rw [← any_results, List.any_eq_true]
  rfl

/-- With distinct paths, a file that sees the request is the only one at
its path. -/
theorem not_isProcessed_of_isStopped (hdistinct : w.units.Pairwise fun u v => ¬ u.path.same v.path)
    {f : Finding} (h : w.IsStopped cancellation f) : ¬ w.IsProcessed cancellation f := by
  obtain ⟨u, hu, hseen, hpath⟩ := h
  rw [isProcessed_iff, isMet, List.any_eq_true]
  rintro ⟨v, hv, hsame⟩
  obtain ⟨hv, hgoing⟩ := List.mem_filter.1 hv
  have huv : u.path.same v.path :=
    beq_iff_eq.2 ((eq_of_beq hpath).trans (eq_of_beq hsame).symm)
  have : Std.Symm fun u v : SourceUnit => ¬ u.path.same v.path :=
    ⟨fun _ _ hab hba => hab (beq_iff_eq.2 (eq_of_beq hba).symm)⟩
  have heq : u = v := by
    by_contra hne
    exact hdistinct.forall hu hv hne huv
  rw [heq] at hseen
  rw [hseen] at hgoing
  cases hgoing

theorem any_cancelled (f : Finding) :
    (w.transform cancellation).cancelled.any (fun p => p.same f.path) ↔
      w.IsStopped cancellation f := by
  have hstopped : (w.transform cancellation).cancelled =
      (w.units.filter fun u => cancellation.seenBy u.path).map SourceUnit.path := by
    rw [transform, List.partition_eq_filter_filter]
  rw [hstopped, List.any_map, List.any_filter, List.any_eq_true]
  simp only [Function.comp_apply, Bool.and_eq_true]
  rfl

/-- The reason that is given is why the finding is unmatched. -/
theorem unmatched_of_unmatchedReason? {f : Finding} {reason : UnmatchedReason}
    (h : w.unmatchedReason? (w.transform cancellation) f = some reason) :
    w.Unmatched cancellation f reason := by
  rw [unmatchedReason?] at h
  split at h
  · cases h
  · split at h
    next hstopped =>
      cases h
      exact .cancelled ((any_cancelled f).1 hstopped)
    next hstopped =>
      have hnot := fun hs => hstopped ((any_cancelled f).2 hs)
      split at h
      next hfilter =>
        cases h
        exact .excluded hnot (by simpa using hfilter)
      next hfilter =>
        cases h
        exact .missingFile hnot (by simpa using hfilter)

/-- **A run that is told to stop gives a consistent part of its report.**
The results, and the files of the report, are those of the run that goes
on, but for the files that see the request. Unmatched are the findings on
no processed file, each once and with the reason why; and no file was
processed that the request came in the way of. -/
theorem partial_of_cancelled (hdistinct : w.units.Pairwise fun u v => ¬ u.path.same v.path)
    (cancellation : Cancellation) (info : RunInfo) (errors : List MalformedReport) :
    (w.transform cancellation).results =
      (w.transform .never).results.filter (fun r => !cancellation.seenBy r.path) ∧
    (w.transform cancellation).symbols = (w.transform .never).symbols ∧
    (w.report (w.transform cancellation) info errors).files =
      (w.report (w.transform .never) info errors).files.filter
        (fun r => !cancellation.seenBy r.path) ∧
    (∃ reason : Finding → UnmatchedReason,
      (w.report (w.transform cancellation) info errors).unmatched.Perm
        ((w.findings.filter fun f => ¬ w.IsProcessed cancellation f).map
          fun f => ⟨f.id, f.rule, f.path, reason f⟩) ∧
      ∀ f ∈ w.findings, ¬ w.IsProcessed cancellation f → w.Unmatched cancellation f (reason f)) ∧
    ∀ f, w.IsStopped cancellation f → ¬ w.IsProcessed cancellation f := by
  refine ⟨results_transform_filter, rfl, files_report_filter info errors, ?_,
    fun f => not_isProcessed_of_isStopped hdistinct⟩
  have hnot : (fun f => !w.isMet cancellation f) =
      fun f => decide (¬ w.IsProcessed cancellation f) := by
    funext f
    rw [decide_not, Bool.decide_congr isProcessed_iff, Bool.decide_eq_true]
  refine ⟨fun f => (w.unmatchedReason? (w.transform cancellation) f).getD .missingFile, ?_, ?_⟩
  · rw [← hnot]
    exact (List.mergeSort_perm _ _).trans (List.Perm.of_eq unmatched_transform)
  · intro f _ hnone
    have hsome := @isSome_unmatchedReason? w cancellation f
    rw [isProcessed_iff, Bool.not_eq_true] at hnone
    rw [hnone, Bool.not_false] at hsome
    obtain ⟨reason, hreason⟩ := Option.isSome_iff_exists.1 hsome
    simp only [hreason, Option.getD_some]
    exact unmatched_of_unmatchedReason? hreason

/-- A finding of rule `R` on a file. -/
def findingOn (id path : String) : Finding :=
  ⟨id, "tool", "R", ⟨path⟩, ⟨⟨0, 0⟩, ⟨0, 1⟩, none, .utf16⟩, .medium, none, []⟩

/-- Two files, and findings on both, on a file that is left out and on one
that there is not. -/
def twoFiles : Workload where
  units := [⟨⟨"a.xml"⟩, .xml, .utf8, "ab", .plain⟩, ⟨⟨"b.xml"⟩, .xml, .utf8, "ab", .plain⟩]
  findings := [findingOn "1" "d.xml", findingOn "2" "b.xml", findingOn "3" "c.xml",
    findingOn "4" "a.xml"]
  catalog := [Script.toCodemod (.putting "drop" "a" "" ["R"] 0 0)]
  active := [0]
  filter := ⟨[], [⟨⟨"c.xml".toList.map .literal⟩, "c.xml", none⟩]⟩

/-- The run is told to stop when one of the files is done. -/
def stopAtSecond : Cancellation := ⟨true, fun p => p.text == "b.xml"⟩

/-- Each reason is given once, and the other file is changed. -/
theorem partial_of_cancelled_twoFiles :
    (twoFiles.units.Pairwise fun u v => ¬ u.path.same v.path) ∧
    (twoFiles.transform stopAtSecond).results =
      (twoFiles.transform .never).results.filter (fun r => !stopAtSecond.seenBy r.path) ∧
    (twoFiles.transform stopAtSecond).results.map (fun r => (r.path, r.isChanged)) =
      [(⟨"a.xml"⟩, true)] ∧
    (twoFiles.unmatched (twoFiles.transform stopAtSecond)).map (fun u => (u.path, u.reason)) =
      [(⟨"d.xml"⟩, .missingFile), (⟨"b.xml"⟩, .cancelled), (⟨"c.xml"⟩, .excluded)] := by
  have hdistinct : twoFiles.units.Pairwise fun u v => ¬ u.path.same v.path := by decide +kernel
  have hpartial := partial_of_cancelled hdistinct stopAtSecond plainRun []
  exact ⟨hdistinct, hpartial.1, by decide +kernel, by decide +kernel⟩

end Workload

end Remedy
