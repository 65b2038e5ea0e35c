import Remedy.Proofs.Change.Applied
import Remedy.Proofs.Change.Entries
/-!
# Nothing is dropped

The ledger of a file lists every pair of a codemod and a span that was
located, each with one record of the result. What a result tells beyond its
ledger are the skips that findings have of their own, and a file that could
not be parsed skips each of its findings (`nothing_dropped`).
-/

namespace Remedy

/-- What matches are told apart by. -/
def Match.key (m : Match) : Nat × Span := (m.codemod, m.site.span)

namespace FileResult

variable {ctx : PlanContext} {findings : List Finding}

/-- What a result tells of matches. -/
def records (r : FileResult) : List Record :=
  r.changes.map Record.change ++ r.errors.map Record.error ++
    (r.skipped.filter fun s => s.reason.isOfMatch).map Record.skip

/-- **The ledger of a file**: every located pair once, each with one record
of the result, which is about the pair and carries the findings that the
codemod located the span for, and no others. -/
structure Ledger (ctx : PlanContext) (findings : List Finding) (result : FileResult)
    (entries : List ((Nat × Span) × Record)) : Prop where
  once : (entries.map Prod.fst).Nodup
  located : ∀ i s, (i, s) ∈ entries.map Prod.fst ↔ Plan.Located ctx findings i s
  recorded : (entries.map Prod.snd).Perm result.records
  isAbout : ∀ e ∈ entries, ∃ c, ctx.catalog[e.1.1]? = some c ∧ e.2.IsAbout c.id e.1.2
  carried : ∀ e ∈ entries, ∀ id, id ∈ e.2.findings ↔
    ∃ f ∈ findings, f.id = id ∧ Plan.LocatedFor ctx f e.1.1 e.1.2

/-- **A result accounts for a file** that was parsed: it has a ledger, and
its other skips are those that the findings have of their own. -/
structure Complete (ctx : PlanContext) (findings : List Finding) (result : FileResult) : Prop where
  ledger : ∃ entries, Ledger ctx findings result entries
  own : ∀ f ∈ findings, ∀ skip, Plan.OwnSkip ctx f skip → skip ∈ result.skipped
  others : (result.skipped.filter fun s => !s.reason.isOfMatch).Perm
    (findings.flatMap fun f => (Plan.ofFinding ctx f).2)

/-- A result gives a file up for an error: nothing is changed, and every
finding has its skip. -/
structure GivenUp (error : ParseError) (findings : List Finding) (result : FileResult) : Prop where
  changes : result.changes = []
  errors : result.errors = [.parse error]
  skipped : result.skipped.Perm
    (findings.map fun f => Skip.ofFinding f .parseFailed none none)

/-! ## Skips by their reasons -/

/-- The skips of a file that matches have. -/
def matchSkips (ctx : PlanContext) (findings : List Finding) : List Skip :=
  Plan.turnedAway ctx findings ++ (Plan.settle ctx.unit (Plan.found ctx findings)).2 ++
    (executed ctx findings).unchanged

/-- The skips of a file that findings have of their own. -/
def ownSkips (ctx : PlanContext) (findings : List Finding) : List Skip :=
  findings.flatMap fun f => (Plan.ofFinding ctx f).2

theorem not_isOfMatch_ownSkips : ∀ s ∈ ownSkips ctx findings, ¬ s.reason.isOfMatch := by
  intro s hs
  obtain ⟨f, -, hskip⟩ := List.mem_flatMap.1 hs
  cases Plan.mem_skips_ofFinding.1 hskip <;> exact Bool.false_ne_true

/-- **The skips of a plan** are those of the findings, those of candidates
that were turned away and those of matches that lost. -/
theorem perm_skipped_plan (ctx : PlanContext) (findings : List Finding) :
    (Plan.ofFindings ctx findings).skipped.Perm (ownSkips ctx findings ++
      Plan.turnedAway ctx findings ++ (Plan.settle ctx.unit (Plan.found ctx findings)).2) := by
  have hown : (findings.map (Plan.ofFinding ctx)).flatMap (·.2) = ownSkips ctx findings := by
    rw [List.flatMap_map, ownSkips]
  rw [← hown]
  exact List.mergeSort_perm _ _

/-- **The skips of a parsed file** are those of its findings and those of
its matches. -/
theorem perm_skipped (hparsed : ctx.unit.parseError? = none) :
    (ofFindings ctx findings).skipped.Perm
      (ownSkips ctx findings ++ matchSkips ctx findings) := by
  rw [ofFindings, ofFindingsBy_of_parsed _ hparsed, matchSkips, ← List.append_assoc,
    ← List.append_assoc]
  exact (List.mergeSort_perm _ _).trans ((perm_skipped_plan ctx findings).append_right _)

/-- The records of matches are those of their skips and of what came of the
others. -/
theorem perm_allRecords (ctx : PlanContext) (findings : List Finding) :
    ((Plan.turnedAway ctx findings ++ (Plan.settle ctx.unit (Plan.found ctx findings)).2).map
        Record.skip ++ (Execution.outcomes (Plan.view ctx) ctx.catalog
          (Plan.ofFindings ctx findings).accepted).map Outcome.record).Perm
      ((executed ctx findings).changes.map Record.change ++
        (executed ctx findings).errors.map Record.error ++
          (matchSkips ctx findings).map Record.skip) := by
  refine ((Execution.perm_ofMatches _ _ _).append_left _).trans ?_
  have hsplit : (matchSkips ctx findings).map Record.skip = (Plan.turnedAway ctx findings ++
      (Plan.settle ctx.unit (Plan.found ctx findings)).2).map Record.skip ++
        (executed ctx findings).unchanged.map Record.skip := List.map_append
  rw [hsplit]
  exact List.perm_append_comm_assoc _ _ _

theorem isOfMatch_matchSkips : ∀ s ∈ matchSkips ctx findings, s.reason.isOfMatch := by
  intro s hs
  obtain ⟨entries, -, hrecords, haccounts⟩ := Plan.exists_entries ctx findings
  -- the skip is one of the records of all entries, and these account for their matches
  have hmem : Record.skip s ∈ entries.map Prod.snd := by
    refine (hrecords.trans (perm_allRecords ctx findings)).mem_iff.2 ?_
    exact List.mem_append_right _ (List.mem_map_of_mem hs)
  obtain ⟨e, he, heq⟩ := List.mem_map.1 hmem
  have habout := (haccounts e he).isAbout
  rw [heq] at habout
  exact habout.2.2

/-- **The skips of a parsed file fall into two**: by their reasons they are
those of its matches or those of its findings. -/
theorem perm_filter_skipped (hparsed : ctx.unit.parseError? = none) :
    ((ofFindings ctx findings).skipped.filter fun s => s.reason.isOfMatch).Perm
        (matchSkips ctx findings) ∧
      ((ofFindings ctx findings).skipped.filter fun s => !s.reason.isOfMatch).Perm
        (ownSkips ctx findings) := by
  have hperm := @perm_skipped ctx findings hparsed
  constructor
  · refine (hperm.filter _).trans ?_
    rw [List.filter_append, List.filter_eq_nil_iff.2 not_isOfMatch_ownSkips,
      List.filter_eq_self.2 isOfMatch_matchSkips, List.nil_append]
  · refine (hperm.filter _).trans ?_
    have hown : ∀ s ∈ ownSkips ctx findings, (!s.reason.isOfMatch) = true := by
      intro s hs
      simpa using not_isOfMatch_ownSkips s hs
    have hmatch : ∀ s ∈ matchSkips ctx findings, ¬ (!s.reason.isOfMatch) = true := by
      intro s hs
      simpa using isOfMatch_matchSkips s hs
    rw [List.filter_append, List.filter_eq_self.2 hown, List.filter_eq_nil_iff.2 hmatch,
      List.append_nil]

/-! ## The ledger -/

/-- The records of a parsed file are those of its matches. -/
theorem perm_records_ofFindings (hparsed : ctx.unit.parseError? = none) :
    ((executed ctx findings).changes.map Record.change ++
        (executed ctx findings).errors.map Record.error ++
          (matchSkips ctx findings).map Record.skip).Perm (ofFindings ctx findings).records := by
  have hskips := ((@perm_filter_skipped ctx findings hparsed).1.symm).map Record.skip
  rw [ofFindings, ofFindingsBy_of_parsed _ hparsed] at hskips ⊢
  exact hskips.append_left _

/-- **A file that was parsed has a ledger.** -/
theorem exists_ledger (hparsed : ctx.unit.parseError? = none) :
    ∃ entries, Ledger ctx findings (ofFindings ctx findings) entries := by
  obtain ⟨entries, hmatches, hrecords, haccounts⟩ := Plan.exists_entries ctx findings
  have hkeys : ((entries.map fun e => (e.1.key, e.2)).map Prod.fst).Perm
      ((Plan.candidates (Plan.bids ctx findings)).map Candidate.key) := by
    have h := hmatches.map Match.key
    rw [List.map_map] at h ⊢
    rw [List.map_map] at h
    exact h
  have hcandidate : ∀ e ∈ entries, ∃ c ∈ Plan.candidates (Plan.bids ctx findings),
      Plan.toMatch ctx c = e.1 := fun e he =>
    List.mem_map.1 (hmatches.subset (List.mem_map_of_mem he))
  refine ⟨entries.map fun e => (e.1.key, e.2), ?_, ?_, ?_, ?_, ?_⟩
  case refine_1 => exact hkeys.nodup_iff.2 (Plan.nodup_keys_candidates _)
  case refine_2 =>
    intro i s
    rw [hkeys.mem_iff, Plan.mem_keys_candidates, Plan.mem_keys_bids]
  case refine_3 =>
    rw [List.map_map]
    exact (hrecords.trans (perm_allRecords ctx findings)).trans (perm_records_ofFindings hparsed)
  case refine_4 =>
    intro _ hentry
    obtain ⟨e, he, rfl⟩ := List.mem_map.1 hentry
    obtain ⟨c, hc, heq⟩ := hcandidate e he
    obtain ⟨codemod, hlisted⟩ := Plan.exists_listed hc
    have habout := (haccounts e he).isAbout
    -- a match is named after its codemod, which the catalog has
    have hid : e.1.codemodId = codemod.id := by
      rw [← heq, Plan.toMatch, hlisted]
      rfl
    rw [hid] at habout
    exact ⟨codemod, by rw [← heq]; exact hlisted, habout⟩
  case refine_5 =>
    intro _ hentry id
    obtain ⟨e, he, rfl⟩ := List.mem_map.1 hentry
    obtain ⟨c, hc, heq⟩ := hcandidate e he
    rw [(haccounts e he).findings, ← heq, Plan.toMatch, Plan.mem_sortedIds,
      Plan.mem_findings_candidates hc]
    exact Plan.exists_bid_for_iff

/-- A file that was parsed is accounted for. -/
theorem complete_ofFindings (hparsed : ctx.unit.parseError? = none) :
    Complete ctx findings (ofFindings ctx findings) := by
  have hothers := (@perm_filter_skipped ctx findings hparsed).2
  refine ⟨exists_ledger hparsed, ?_, hothers⟩
  intro f hf skip hown
  have hmem : skip ∈ ownSkips ctx findings :=
    List.mem_flatMap.2 ⟨f, hf, Plan.mem_skips_ofFinding.2 hown⟩
  exact List.mem_of_mem_filter (hothers.mem_iff.2 hmem)

/-- A file that could not be parsed is given up. -/
theorem givenUp_ofFindings {error : ParseError} (herror : ctx.unit.parseError? = some error) :
    GivenUp error findings (ofFindings ctx findings) := by
  rw [ofFindings, ofFindingsBy_of_failed _ herror]
  exact ⟨rfl, rfl, List.mergeSort_perm _ _⟩

/-- **Nothing is dropped.** A file that was parsed is accounted for: every
pair of a codemod and a span that was located has one record, with its
findings, and a finding that led nowhere has a skip. A file that could not
be parsed is given up, with a skip for each finding. -/
theorem nothing_dropped (ctx : PlanContext) (findings : List Finding) :
    (ctx.unit.parseError? = none → Complete ctx findings (ofFindings ctx findings)) ∧
      ∀ error, ctx.unit.parseError? = some error →
        GivenUp error findings (ofFindings ctx findings) :=
  ⟨complete_ofFindings, fun _ => givenUp_ofFindings⟩

/-- A file with one site. -/
def oneSite : PlanContext := .ofScripts "ab" [.putting "swap" "a" "x" ["R"] 0 0]

/-- A finding on the first line. -/
def onFirstLine : Finding :=
  ⟨"1", "tool", "R", ⟨"a.xml"⟩, ⟨⟨0, 0⟩, ⟨0, 2⟩, none, .chars⟩, .medium, none, []⟩

theorem nothing_dropped_oneSite :
    oneSite.unit.parseError? = none ∧
      Complete oneSite [onFirstLine] (ofFindings oneSite [onFirstLine]) ∧
      GivenUp (.encoding "x") [onFirstLine] (ofFindings
        { oneSite with unit := .failed ⟨"a.xml"⟩ .xml (.encoding "x") } [onFirstLine]) :=
  ⟨rfl, (nothing_dropped oneSite [onFirstLine]).1 rfl, (nothing_dropped _ _).2 _ rfl⟩

end FileResult

end Remedy
