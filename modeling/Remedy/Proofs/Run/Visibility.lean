import Mathlib
import Remedy.Proofs.Change.Ledger
import Remedy.Proofs.Diff.Seen
import Remedy.Run.Pipeline
/-!
# What a report shows of findings

The result of a file mentions every finding on the file and no other one
(`mentions_ofFindings`). A report lists the results of files that there is
something to tell about, and that is decided by the difference of the
texts: a file whose changes cancel each other out (`CancelsOut`) is left
out, together with its findings. So a report mentions exactly the findings
on the other files that were processed, and lists those on no such file as
unmatched (`unmatched_and_mentioned`).
-/

namespace Remedy

namespace FileResult

variable {ctx : PlanContext} {findings : List Finding} {f : Finding} {id : String}

/-- An id stands in the changes, the skips or the errors of a result. -/
def Mentions (r : FileResult) (id : String) : Prop :=
  (∃ c ∈ r.changes, id ∈ c.findings) ∨ (∃ s ∈ r.skipped, id ∈ s.findings) ∨
    ∃ e ∈ r.errors, id ∈ e.findings

/-- **The changes of a file cancel each other out**, and there is nothing
else to tell about it. -/
structure CancelsOut (ctx : PlanContext) (findings : List Finding) : Prop where
  text : newText ctx findings = ctx.unit.text
  skipped : (ofFindings ctx findings).skipped = []
  errors : (ofFindings ctx findings).errors = []

/-- What the records of a result carry is mentioned by it. -/
theorem mentions_of_mem_records {r : FileResult} {record : Record} (h : record ∈ r.records)
    (hid : id ∈ record.findings) : r.Mentions id := by
  rw [records, List.mem_append, List.mem_append, List.mem_map, List.mem_map, List.mem_map] at h
  rcases h with (⟨c, hc, rfl⟩ | ⟨e, he, rfl⟩) | ⟨s, hs, rfl⟩
  · exact Or.inl ⟨c, hc, hid⟩
  · exact Or.inr (Or.inr ⟨e, he, hid⟩)
  · exact Or.inr (Or.inl ⟨s, List.mem_of_mem_filter hs, hid⟩)

/-- What a result mentions is carried by a record or by another skip. -/
theorem Mentions.cases {r : FileResult} (h : r.Mentions id) :
    (∃ record ∈ r.records, id ∈ record.findings) ∨
      ∃ s ∈ r.skipped, ¬ s.reason.isOfMatch ∧ id ∈ s.findings := by
  have hrecords : ∀ record, record ∈ r.records ↔ (∃ c ∈ r.changes, Record.change c = record) ∨
      (∃ e ∈ r.errors, Record.error e = record) ∨
        ∃ s ∈ r.skipped, s.reason.isOfMatch ∧ Record.skip s = record := by
    intro record
    simp only [records, List.mem_append, List.mem_map, List.mem_filter, or_assoc, and_assoc]
  rcases h with ⟨c, hc, hid⟩ | ⟨s, hs, hid⟩ | ⟨e, he, hid⟩
  · exact Or.inl ⟨.change c, (hrecords _).2 (Or.inl ⟨c, hc, rfl⟩), hid⟩
  · by_cases hmatch : s.reason.isOfMatch
    · exact Or.inl ⟨.skip s, (hrecords _).2 (Or.inr (Or.inr ⟨s, hs, hmatch, rfl⟩)), hid⟩
    · exact Or.inr ⟨s, hs, hmatch, hid⟩
  · exact Or.inl ⟨.error e, (hrecords _).2 (Or.inr (Or.inl ⟨e, he, rfl⟩)), hid⟩

/-- The skips that a finding has of its own are about it alone. -/
theorem findings_of_ownSkip {skip : Skip} (h : Plan.OwnSkip ctx f skip) :
    skip.findings = [f.id] := by
  cases h <;> rfl

/-- A finding has a skip of its own, or a codemod located a span for it. -/
theorem exists_ownSkip_or_locatedFor (ctx : PlanContext) (f : Finding) :
    (∃ skip, Plan.OwnSkip ctx f skip) ∨ ∃ i s, Plan.LocatedFor ctx f i s := by
  cases hregion : f.location.region? ctx.unit with
  | none => exact Or.inl ⟨_, Plan.OwnSkip.outside hregion⟩
  | some region =>
    by_cases hclaimed : ∃ i c, Plan.Claims ctx f i c
    · obtain ⟨i, c, hc⟩ := hclaimed
      cases hsites : c.locate (Plan.view ctx) (some region) with
      | nil => exact Or.inl ⟨_, Plan.OwnSkip.missed hregion hc hsites⟩
      | cons site sites =>
        have hsite : site ∈ c.locate (Plan.view ctx) (some region) := by
          rw [hsites]
          exact List.mem_cons_self
        exact Or.inr ⟨i, site.span, region, c, hregion, hc, site, hsite, rfl⟩
    · have hnobody : ∀ i c, ¬ Plan.Claims ctx f i c := fun i c hc => hclaimed ⟨i, c, hc⟩
      exact Or.inl ⟨_, Plan.OwnSkip.unclaimed hregion hnobody⟩

/-- A parsed file mentions its findings, and no other ones. -/
theorem mentions_of_parsed (hparsed : ctx.unit.parseError? = none) :
    (ofFindings ctx findings).Mentions id ↔ ∃ f ∈ findings, f.id = id := by
  obtain ⟨entries, hledger⟩ := @exists_ledger ctx findings hparsed
  have hown := (@perm_filter_skipped ctx findings hparsed).2
  constructor
  · intro hmentions
    rcases hmentions.cases with ⟨record, hrecord, hid⟩ | ⟨s, hs, hother, hid⟩
    · obtain ⟨e, he, rfl⟩ := List.mem_map.1 (hledger.recorded.mem_iff.2 hrecord)
      obtain ⟨f, hf, hfid, -⟩ := (hledger.carried e he id).1 hid
      exact ⟨f, hf, hfid⟩
    · have hmem : s ∈ ownSkips ctx findings :=
        hown.mem_iff.1 (List.mem_filter.2 ⟨hs, by simpa using hother⟩)
      obtain ⟨f, hf, hskip⟩ := List.mem_flatMap.1 hmem
      rw [findings_of_ownSkip (Plan.mem_skips_ofFinding.1 hskip), List.mem_singleton] at hid
      exact ⟨f, hf, hid.symm⟩
  · rintro ⟨f, hf, rfl⟩
    -- a finding stands in a skip of its own or in the record of a pair
    rcases exists_ownSkip_or_locatedFor ctx f with ⟨skip, hskip⟩ | ⟨i, s, hlocated⟩
    · have hmem : skip ∈ ownSkips ctx findings :=
        List.mem_flatMap.2 ⟨f, hf, Plan.mem_skips_ofFinding.2 hskip⟩
      have hskipped := List.mem_of_mem_filter (hown.mem_iff.2 hmem)
      refine Or.inr (Or.inl ⟨skip, hskipped, ?_⟩)
      rw [findings_of_ownSkip hskip]
      exact List.mem_singleton_self f.id
    · have hkey := (hledger.located i s).2 (Or.inl ⟨f, hf, hlocated⟩)
      obtain ⟨e, he, heq⟩ := List.mem_map.1 hkey
      have hfor : Plan.LocatedFor ctx f e.1.1 e.1.2 := by
        rw [heq]
        exact hlocated
      have hrecord := hledger.recorded.subset (List.mem_map_of_mem he)
      exact mentions_of_mem_records hrecord ((hledger.carried e he f.id).2 ⟨f, hf, rfl, hfor⟩)

/-- **A result mentions the findings on its file**, and no other ones. -/
theorem mentions_ofFindings :
    (ofFindings ctx findings).Mentions id ↔ ∃ f ∈ findings, f.id = id := by
  cases hparsed : ctx.unit.parseError? with
  | none => exact mentions_of_parsed hparsed
  | some error =>
    have hgiven := @givenUp_ofFindings ctx findings error hparsed
    constructor
    · rintro (⟨c, hc, -⟩ | ⟨s, hs, hid⟩ | ⟨e, he, hid⟩)
      · rw [hgiven.changes] at hc
        cases hc
      · obtain ⟨f, hf, rfl⟩ := List.mem_map.1 (hgiven.skipped.subset hs)
        exact ⟨f, hf, (List.mem_singleton.1 hid).symm⟩
      · rw [hgiven.errors, List.mem_singleton] at he
        rw [he] at hid
        cases hid
    · rintro ⟨f, hf, rfl⟩
      have hskip := hgiven.skipped.mem_iff.2 (List.mem_map_of_mem hf)
      exact Or.inr (Or.inl ⟨_, hskip, List.mem_singleton_self f.id⟩)

/-- **When there is nothing to tell about a file**: when its changes cancel
each other out. -/
theorem isNoteworthy_iff : (ofFindings ctx findings).isNoteworthy ↔ ¬ CancelsOut ctx findings := by
  have hcancels : CancelsOut ctx findings ↔ newText ctx findings = ctx.unit.text ∧
      (ofFindings ctx findings).skipped = [] ∧ (ofFindings ctx findings).errors = [] :=
    ⟨fun h => ⟨h.text, h.skipped, h.errors⟩, fun h => ⟨h.1, h.2.1, h.2.2⟩⟩
  have hnoteworthy : (ofFindings ctx findings).isNoteworthy ↔
      (ofFindings ctx findings).diff ≠ [] ∨ (ofFindings ctx findings).skipped ≠ [] ∨
        (ofFindings ctx findings).errors ≠ [] := by
    simp only [isNoteworthy, isChanged, Bool.or_eq_true, Bool.not_eq_true',
      List.isEmpty_eq_false_iff, or_assoc]
  rw [hnoteworthy, hcancels]
  cases hparsed : ctx.unit.parseError? with
  | none =>
    have hsame : (ofFindings ctx findings).diff = [] ↔ newText ctx findings = ctx.unit.text := by
      rw [ofFindings, ofFindingsBy_of_parsed _ hparsed]
      exact (Diff.hunks_eq_nil_iff ctx.unit.path.display _ _).trans eq_comm
    rw [← hsame]
    tauto
  | some error =>
    -- a file that was given up has an error
    have herrors : (ofFindings ctx findings).errors ≠ [] := by
      rw [(givenUp_ofFindings hparsed).errors]
      exact List.cons_ne_nil _ _
    tauto

end FileResult

namespace Workload

variable {w : Workload} {cancellation : Cancellation} {info : RunInfo}
variable {errors : List MalformedReport} {id : String}

/-- The units that are processed: those that see no request to stop. -/
def going (w : Workload) (cancellation : Cancellation) : List SourceUnit :=
  w.units.filter fun u => !cancellation.seenBy u.path

/-- The path of a finding is that of a unit that is processed. -/
def isMet (w : Workload) (cancellation : Cancellation) (f : Finding) : Bool :=
  (w.going cancellation).any fun u => u.path.same f.path

/-- The symbols of a run. -/
def symbolTable (w : Workload) : SymbolTable := SymbolTable.build w.units

theorem results_transform :
    (w.transform cancellation).results = (w.going cancellation).map (w.resultOf w.symbolTable) := by
  have hgoing : (w.units.partition fun u => cancellation.seenBy u.path).2 =
      w.going cancellation := by
    rw [List.partition_eq_filter_filter]
    rfl
  rw [← hgoing]
  rfl

theorem path_resultOf (symbols : SymbolTable) (u : SourceUnit) :
    (w.resultOf symbols u).path = u.path := by
  rw [resultOf, FileResult.ofFindings, FileResult.ofFindingsBy]
  split <;> rfl

/-- A finding is met when the result of a file has its path. -/
theorem any_results (f : Finding) :
    (w.transform cancellation).results.any (fun r => r.path.same f.path) =
      w.isMet cancellation f := by
  rw [results_transform, List.any_map, isMet]
  congr 1
  funext u
  rw [Function.comp_apply, path_resultOf]

/-- There is a reason for a finding that is not met, and only then. -/
theorem isSome_unmatchedReason? (f : Finding) :
    (w.unmatchedReason? (w.transform cancellation) f).isSome = !w.isMet cancellation f := by
  rw [unmatchedReason?, any_results]
  cases w.isMet cancellation f
  · simp only [Bool.false_eq_true, if_false]
    split
    · rfl
    · split <;> rfl
  · rfl

/-- The unmatched findings, in the order of the findings. -/
theorem unmatched_transform : w.unmatched (w.transform cancellation) =
    (w.findings.filter fun f => !w.isMet cancellation f).map fun f => ⟨f.id, f.rule, f.path,
      (w.unmatchedReason? (w.transform cancellation) f).getD .missingFile⟩ := by
  rw [unmatched, ← List.filterMap_eq_map', List.filterMap_filter]
  congr 1
  funext f
  rw [← isSome_unmatchedReason? f]
  cases w.unmatchedReason? (w.transform cancellation) f <;> rfl

/-- **Unmatched are the findings that are not met**, each once. -/
theorem perm_unmatched : ∃ reason : Finding → UnmatchedReason,
    (w.report (w.transform cancellation) info errors).unmatched.Perm
      ((w.findings.filter fun f => !w.isMet cancellation f).map
        fun f => ⟨f.id, f.rule, f.path, reason f⟩) := by
  refine ⟨fun f => (w.unmatchedReason? (w.transform cancellation) f).getD .missingFile, ?_⟩
  exact (List.mergeSort_perm _ _).trans (List.Perm.of_eq unmatched_transform)

/-- The files that a report lists. -/
theorem mem_files {r : FileResult} :
    r ∈ (w.report (w.transform cancellation) info errors).files ↔
      ∃ u ∈ w.going cancellation, r = w.resultOf w.symbolTable u ∧
        ¬ FileResult.CancelsOut (w.contextOf w.symbolTable u) (w.findingsOn u) := by
  rw [report, Report.aggregate]
  simp only [List.mem_mergeSort, List.mem_filter, results_transform, List.mem_map]
  constructor
  · rintro ⟨⟨u, hu, rfl⟩, hnoteworthy⟩
    exact ⟨u, hu, rfl, FileResult.isNoteworthy_iff.1 hnoteworthy⟩
  · rintro ⟨u, hu, rfl, hcancels⟩
    exact ⟨⟨u, hu, rfl⟩, FileResult.isNoteworthy_iff.2 hcancels⟩

/-- **What a report shows of findings.** Those on no file that was processed
are unmatched, each once. Of the others those are mentioned that are on a
file whose changes do not cancel each other out; and where they do, the
findings stand in these changes alone. -/
theorem unmatched_and_mentioned (w : Workload) (cancellation : Cancellation) (info : RunInfo)
    (errors : List MalformedReport) :
    (∃ reason : Finding → UnmatchedReason,
      (w.report (w.transform cancellation) info errors).unmatched.Perm
        ((w.findings.filter fun f => !w.isMet cancellation f).map
          fun f => ⟨f.id, f.rule, f.path, reason f⟩)) ∧
    (∀ id, (∃ r ∈ (w.report (w.transform cancellation) info errors).files, r.Mentions id) ↔
      ∃ f ∈ w.findings, f.id = id ∧ ∃ u ∈ w.going cancellation, f.path.same u.path ∧
        ¬ FileResult.CancelsOut (w.contextOf w.symbolTable u) (w.findingsOn u)) ∧
    ∀ u ∈ w.going cancellation,
      FileResult.CancelsOut (w.contextOf w.symbolTable u) (w.findingsOn u) →
        ∀ f ∈ w.findings, f.path.same u.path →
          ∃ c ∈ (w.resultOf w.symbolTable u).changes, f.id ∈ c.findings := by
  refine ⟨perm_unmatched, ?_, ?_⟩
  · intro id
    constructor
    · rintro ⟨r, hr, hmentions⟩
      obtain ⟨u, hu, rfl, hcancels⟩ := mem_files.1 hr
      obtain ⟨f, hf, hid⟩ := FileResult.mentions_ofFindings.1 hmentions
      obtain ⟨hfinding, hpath⟩ := List.mem_filter.1 hf
      exact ⟨f, hfinding, hid, u, hu, hpath, hcancels⟩
    · rintro ⟨f, hf, hid, u, hu, hpath, hcancels⟩
      have hon : f ∈ w.findingsOn u := List.mem_filter.2 ⟨hf, hpath⟩
      exact ⟨_, mem_files.2 ⟨u, hu, rfl, hcancels⟩, FileResult.mentions_ofFindings.2 ⟨f, hon, hid⟩⟩
  · intro u hu hcancels f hf hpath
    have hon : f ∈ w.findingsOn u := List.mem_filter.2 ⟨hf, hpath⟩
    have hmentions : (w.resultOf w.symbolTable u).Mentions f.id :=
      FileResult.mentions_ofFindings.2 ⟨f, hon, rfl⟩
    rcases hmentions with hchange | ⟨s, hs, -⟩ | ⟨e, he, -⟩
    · exact hchange
    · rw [resultOf, hcancels.skipped] at hs
      cases hs
    · rw [resultOf, hcancels.errors] at he
      cases he

/-- One file and one finding on it. Two codemods take care of it, and what
the one drops the other puts back. -/
def dropAndGrow : Workload where
  units := [⟨⟨"a.xml"⟩, .xml, .utf8, "ab", .plain⟩]
  findings := [⟨"5b145c0ea4694c8d", "tool", "R", ⟨"a.xml"⟩, ⟨⟨0, 0⟩, ⟨0, 2⟩, none, .utf16⟩, .medium,
    none, []⟩]
  catalog := [Script.toCodemod (.putting "drop" "a" "" ["R"] 0 0),
    Script.toCodemod (.putting "grow" "b" "ab" ["R"] 0 0)]
  active := [0, 1]
  filter := ⟨[], []⟩

/-- A run that nothing is known of but its root. -/
def plainRun : RunInfo :=
  ⟨0, 0, 0, ⟨"/repo"⟩, [], [], [], [], ⟨0, 0, 0, 0, 0⟩, false⟩

/-- The finding is neither unmatched nor mentioned. -/
theorem invisible_dropAndGrow :
    ¬ ∀ f ∈ dropAndGrow.findings,
      ((dropAndGrow.report (dropAndGrow.transform .never) plainRun []).unmatched.countP
        fun u => u.finding == f.id) = 1 ∨
      ∃ r ∈ (dropAndGrow.report (dropAndGrow.transform .never) plainRun []).files,
        r.Mentions f.id := by
  have hunmatched : (dropAndGrow.report (dropAndGrow.transform .never) plainRun []).unmatched =
      [] := by cbv
  have hfiles : (dropAndGrow.report (dropAndGrow.transform .never) plainRun []).files = [] := by
    cbv
  intro hvisible
  rcases hvisible _ List.mem_cons_self with hone | ⟨r, hr, -⟩
  · rw [hunmatched, List.countP_nil] at hone
    cases hone
  · rw [hfiles] at hr
    cases hr

end Workload

end Remedy
