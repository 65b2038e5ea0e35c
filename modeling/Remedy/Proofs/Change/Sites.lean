import Mathlib
import Remedy.Proofs.Change.Choice
import Remedy.Proofs.Change.Trace
/-!
# Sites and the types they need

A candidate keeps the site that was asked for first, and bids for one span
may differ in what they need. Where a codemod needs the same for all sites
of one span (`Plan.Consistent`), every located site is the site of its
candidate (`Plan.exists_candidate_of_located`). So a site with a need that
is open ends as a skip (`Plan.exists_turnedAway_of_open`), and a change is
made at a site whose needs are resolved (`exists_site_of_mem_changes`).
-/

namespace Remedy

namespace Plan

variable {ctx : PlanContext} {findings : List Finding} {i : Nat} {c : Codemod} {site : Site}

/-- **A codemod located a site**, for a finding or in a scan. -/
def LocatedSite (ctx : PlanContext) (findings : List Finding) (i : Nat) (c : Codemod)
    (site : Site) : Prop :=
  (∃ f ∈ findings, ∃ region, f.location.region? ctx.unit = some region ∧ Claims ctx f i c ∧
    site ∈ c.locate (view ctx) (some region)) ∨
  TakesPart ctx i c ∧ c.scans ∧ site ∈ c.locate (view ctx) none

theorem LocatedSite.takesPart (h : LocatedSite ctx findings i c site) : TakesPart ctx i c := by
  rcases h with ⟨_, _, _, _, hclaims, _⟩ | ⟨htakes, _⟩
  · exact hclaims.takesPart
  · exact htakes

/-- It was located in a region, or in the whole file. -/
theorem LocatedSite.exists_region (h : LocatedSite ctx findings i c site) :
    ∃ region, site ∈ c.locate (view ctx) region := by
  rcases h with ⟨_, _, region, _, _, hsite⟩ | ⟨_, _, hsite⟩
  · exact ⟨some region, hsite⟩
  · exact ⟨none, hsite⟩

/-- **Bids are for located sites.** -/
theorem exists_bid_iff : (∃ b ∈ bids ctx findings, b.codemod = i ∧ b.site = site) ↔
    ∃ c, LocatedSite ctx findings i c site := by
  constructor
  · rintro ⟨b, hb, rfl, rfl⟩
    rcases mem_bids.1 hb with ⟨f, hf, hbid⟩ | hscan
    · obtain ⟨region, c, hregion, hc, hsite, -⟩ := mem_bids_ofFinding.1 hbid
      exact ⟨c, .inl ⟨f, hf, region, hregion, hc, hsite⟩⟩
    · obtain ⟨-, c, htakes, hscans, hsite⟩ := mem_scanned.1 hscan
      exact ⟨c, .inr ⟨htakes, hscans, hsite⟩⟩
  · rintro ⟨c, ⟨f, hf, region, hregion, hc, hsite⟩ | ⟨htakes, hscans, hsite⟩⟩
    · exact ⟨⟨i, site, some f.id⟩, mem_bids.2 (.inl ⟨f, hf,
        mem_bids_ofFinding.2 ⟨region, c, hregion, hc, hsite, rfl⟩⟩), rfl, rfl⟩
    · exact ⟨⟨i, site, none⟩, mem_bids.2 (.inr (mem_scanned.2 ⟨rfl, c, htakes, hscans, hsite⟩)),
        rfl, rfl⟩

/-! ## The site of a candidate -/

/-- Entering a bid brings in its site at most. -/
theorem exists_of_mem_enter {b : Bid} {cs : List Candidate} {a : Candidate} (h : a ∈ enter b cs) :
    (b.codemod = a.codemod ∧ b.site = a.site) ∨
      ∃ old ∈ cs, old.codemod = a.codemod ∧ old.site = a.site := by
  induction cs with
  | nil =>
    obtain rfl := List.mem_singleton.1 h
    exact .inl ⟨rfl, rfl⟩
  | cons d rest ih =>
    rw [enter] at h
    split at h
    case h_1 =>
      rcases List.mem_cons.1 h with rfl | hrest
      · exact .inr ⟨d, List.mem_cons_self, rfl, rfl⟩
      · exact .inr ⟨a, List.mem_cons_of_mem _ hrest, rfl, rfl⟩
    case h_2 =>
      rcases List.mem_cons.1 h with rfl | hold
      · exact .inl ⟨rfl, rfl⟩
      · exact .inr ⟨a, hold, rfl, rfl⟩
    case h_3 =>
      rcases List.mem_cons.1 h with rfl | hrest
      · exact .inr ⟨a, List.mem_cons_self, rfl, rfl⟩
      · refine (ih hrest).imp_right ?_
        rintro ⟨old, hold, hsame⟩
        exact ⟨old, List.mem_cons_of_mem _ hold, hsame⟩

/-- **The site of a candidate was bid for** by its codemod. -/
theorem exists_bid_of_mem_candidates {bids : List Bid} {a : Candidate} (h : a ∈ candidates bids) :
    ∃ b ∈ bids, b.codemod = a.codemod ∧ b.site = a.site := by
  have hfold : ∀ (more : List Bid) (cs : List Candidate),
      ∀ a ∈ more.foldl (fun done bid => enter bid done) cs,
        (∃ b ∈ more, b.codemod = a.codemod ∧ b.site = a.site) ∨
          ∃ old ∈ cs, old.codemod = a.codemod ∧ old.site = a.site := by
    intro more
    induction more with
    | nil => exact fun cs a ha => .inr ⟨a, ha, rfl, rfl⟩
    | cons b more ih =>
      intro cs a ha
      rcases ih _ a ha with ⟨b', hb', hsame⟩ | ⟨old, hold, hcodemod, hsite⟩
      · exact .inl ⟨b', List.mem_cons_of_mem _ hb', hsame⟩
      · rw [← hcodemod, ← hsite]
        rcases exists_of_mem_enter hold with hsame | hbefore
        · exact .inl ⟨b, List.mem_cons_self, hsame⟩
        · exact .inr hbefore
  rcases hfold bids [] a h with hbid | ⟨_, hnone, -⟩
  · exact hbid
  · cases hnone

/-- Each candidate is one of a located site. -/
theorem exists_located_of_mem_candidates {a : Candidate}
    (h : a ∈ candidates (bids ctx findings)) : ∃ c, LocatedSite ctx findings a.codemod c a.site :=
  exists_bid_iff.1 (exists_bid_of_mem_candidates h)

/-- **A codemod is consistent in a file**: sites of one span need the
same. -/
def Consistent (ctx : PlanContext) (c : Codemod) : Prop :=
  ∀ region region', ∀ a ∈ c.locate (view ctx) region, ∀ b ∈ c.locate (view ctx) region',
    a.span = b.span → a.needs = b.needs

/-- **A located site is that of its candidate**, which was perhaps entered
for another bid. -/
theorem exists_candidate_of_located (hconsistent : Consistent ctx c)
    (h : LocatedSite ctx findings i c site) :
    ∃ a ∈ candidates (bids ctx findings), a.codemod = i ∧ a.site = site := by
  obtain ⟨b, hb, rfl, rfl⟩ := exists_bid_iff.2 ⟨c, h⟩
  obtain ⟨a, ha, hkey⟩ := List.mem_map.1 (mem_keys_candidates.2 (List.mem_map_of_mem hb))
  obtain ⟨hcodemod, hspan⟩ := Prod.mk.inj hkey
  obtain ⟨d, hd⟩ := exists_located_of_mem_candidates ha
  -- both were located by the codemod at that place of the catalog
  obtain rfl : d = c := by
    have hlisted := hd.takesPart.listed
    rw [hcodemod, h.takesPart.listed] at hlisted
    exact (Option.some.inj hlisted).symm
  obtain ⟨region, hsite⟩ := hd.exists_region
  obtain ⟨region', hsite'⟩ := h.exists_region
  have hneeds := hconsistent _ _ _ hsite _ hsite' hspan
  refine ⟨a, ha, hcodemod, ?_⟩
  cases hsame : a.site
  simp_all

/-! ## Open needs -/

/-- **A need is open**: there is no reference for the type name, or the
reference is a gap. -/
def Open (ctx : PlanContext) (need : Span) : Prop :=
  ∀ r, ctx.symbols.referenceAt? ctx.unit.path need = some r → r.resolution.gap?.isSome

/-- The reason why a site with an open need is turned away. -/
def awayReason (ctx : PlanContext) (site : Site) : SkipReason :=
  if ctx.filter.allowsLine ctx.unit.path ((ctx.unit.position site.span.start).line + 1) then
    .resolutionGap
  else .excluded

/-- A candidate with an open need does not pass. -/
theorem not_passes_of_open {a : Candidate} (hlisted : ctx.catalog[a.codemod]? = some c)
    (hneeds : c.needsResolution) {need : Span} (hneed : need ∈ a.site.needs)
    (hopen : Open ctx need) : ¬ Passes ctx a := by
  intro hpasses
  obtain ⟨r, hr, hgap⟩ := hpasses.resolved c hlisted hneeds need hneed
  have hsome := hopen r hr
  rw [hgap] at hsome
  cases hsome

/-- **A candidate with an open need is turned away** for that, unless a
pattern keeps its line out. -/
theorem sift_of_open {a : Candidate} (hlisted : ctx.catalog[a.codemod]? = some c)
    (hneeds : c.needsResolution) {need : Span} (hneed : need ∈ a.site.needs)
    (hopen : Open ctx need) : ∃ detail, sift ctx a =
      .error (Skip.ofMatch (toMatch ctx a) ctx.unit (awayReason ctx a.site) detail) := by
  have hsome : unresolvedNeed? ctx a.site ≠ none := fun hnone => by
    obtain ⟨r, hr, hgap⟩ := unresolvedNeed?_eq_none_iff.1 hnone need hneed
    have hisSome := hopen r hr
    rw [hgap] at hisSome
    cases hisSome
  obtain ⟨name, hname⟩ := Option.ne_none_iff_exists'.1 hsome
  rw [sift, awayReason, hlisted, Option.getD_some, if_pos hneeds, hname]
  cases ctx.filter.allowsLine ctx.unit.path ((ctx.unit.position a.site.span.start).line + 1) with
  | true => exact ⟨some name, rfl⟩
  | false => exact ⟨none, rfl⟩

/-- **A located site with an open need ends as a skip.** -/
theorem exists_turnedAway_of_open (hconsistent : Consistent ctx c) (hneeds : c.needsResolution)
    (h : LocatedSite ctx findings i c site) {need : Span} (hneed : need ∈ site.needs)
    (hopen : Open ctx need) : ∃ skip ∈ turnedAway ctx findings,
      skip.codemod = some c.id ∧ skip.span = some site.span ∧
        skip.reason = awayReason ctx site := by
  obtain ⟨a, ha, rfl, rfl⟩ := exists_candidate_of_located hconsistent h
  have hlisted := h.takesPart.listed
  obtain ⟨detail, hsift⟩ := sift_of_open hlisted hneeds hneed hopen
  refine ⟨_, List.mem_filterMap.2 ⟨_, List.mem_map.2 ⟨a, ha, hsift⟩, rfl⟩, ?_, rfl, rfl⟩
  rw [Skip.ofMatch, toMatch, hlisted, Option.getD_some]

end Plan

namespace FileResult

variable {ctx : PlanContext} {findings : List Finding} {change : Change}

/-- A file that could not be parsed is not changed. -/
theorem parsed_of_mem_changes (h : change ∈ (ofFindings ctx findings).changes) :
    ctx.unit.parseError? = none := by
  cases herror : ctx.unit.parseError? with
  | none => rfl
  | some error =>
    rw [ofFindings, ofFindingsBy_of_failed _ herror] at h
    cases h

/-- **A change is made at a site that was located and passed**, by the
codemod that located it. -/
theorem exists_site_of_mem_changes (h : change ∈ (ofFindings ctx findings).changes) :
    ∃ a ∈ Plan.candidates (Plan.bids ctx findings), ∃ c r,
      Plan.LocatedSite ctx findings a.codemod c a.site ∧ Plan.Passes ctx a ∧
        c.apply (Plan.view ctx) a.site = .ok r ∧ change.span = r.span ∧
        change.codemod = c.id := by
  have htrace := @Trace.leadsTo_ofFindings ctx findings (parsed_of_mem_changes h)
  rw [← htrace.changes] at h
  obtain ⟨⟨m, _⟩, hmem, rfl⟩ := List.mem_map.1 h
  obtain ⟨haccepted, hmade⟩ := (htrace.changed m _).1 hmem
  obtain ⟨-, -, hfound, -⟩ := Plan.exists_contest ctx findings
  obtain ⟨a, ha, hpasses, rfl⟩ := Plan.mem_found.1 (hfound haccepted)
  obtain ⟨c, hlocated⟩ := Plan.exists_located_of_mem_candidates ha
  have hlisted := hlocated.takesPart.listed
  have hfor := Execution.madeFor_of_ofMatch? hmade
  have hid : (Plan.toMatch ctx a).codemodId = c.id := by
    rw [Plan.toMatch, hlisted, Option.getD_some]
  obtain ⟨d, hd, houtcome⟩ := Option.map_eq_some_iff.1 hmade
  obtain rfl : c = d := Option.some.inj (hlisted.symm.trans hd)
  split at houtcome
  · next r hr =>
    exact ⟨a, ha, c, r, hlocated, hpasses, hr, (Execution.eq_of_ofReplacement houtcome).1,
      hfor.codemod.trans hid⟩
  · cases houtcome

end FileResult

end Remedy
