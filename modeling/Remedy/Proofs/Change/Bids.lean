import Remedy.Change.Plan
import Remedy.Proofs.Change.Candidates
/-!
# Who bids for what

A codemod takes part in a file when it is listed, active and applies there.
It bids for the sites that it locates in the region of a finding that it
claims, and if it scans, for those that it locates in the whole file. So
the pairs that are bid for are those that were located (`mem_keys_bids`),
and a finding stands with the bids that it led to (`exists_bid_for_iff`).
A finding that leads to none at a codemod, or at all, has a skip of its own
(`mem_skips_ofFinding`).
-/

namespace Remedy

namespace Plan

/-- A codemod of the catalog takes part in a file. -/
structure TakesPart (ctx : PlanContext) (i : Nat) (c : Codemod) : Prop where
  listed : ctx.catalog[i]? = some c
  active : i ∈ ctx.active
  applies : c.appliesTo ctx.unit

/-- A codemod that takes part claims a finding by its rule. -/
structure Claims (ctx : PlanContext) (f : Finding) (i : Nat) (c : Codemod) : Prop where
  takesPart : TakesPart ctx i c
  handles : f.rule ∈ c.rules

/-- **A codemod located a span for a finding.** -/
def LocatedFor (ctx : PlanContext) (f : Finding) (i : Nat) (s : Span) : Prop :=
  ∃ region c, f.location.region? ctx.unit = some region ∧ Claims ctx f i c ∧
    ∃ site ∈ c.locate (view ctx) (some region), site.span = s

/-- A codemod located a span in a scan. -/
def LocatedByScan (ctx : PlanContext) (i : Nat) (s : Span) : Prop :=
  ∃ c, TakesPart ctx i c ∧ c.scans ∧ ∃ site ∈ c.locate (view ctx) none, site.span = s

/-- **A codemod located a span**, for a finding or in a scan. -/
def Located (ctx : PlanContext) (findings : List Finding) (i : Nat) (s : Span) : Prop :=
  (∃ f ∈ findings, LocatedFor ctx f i s) ∨ LocatedByScan ctx i s

/-- The skips that a finding has of its own. -/
inductive OwnSkip (ctx : PlanContext) (f : Finding) : Skip → Prop
  /-- Its location is not in the file. -/
  | outside : f.location.region? ctx.unit = none →
      OwnSkip ctx f (Skip.ofFinding f .noTarget none (some "location is outside the file"))
  /-- No codemod claims it. -/
  | unclaimed {region : Span} : f.location.region? ctx.unit = some region →
      (∀ i c, ¬ Claims ctx f i c) → OwnSkip ctx f (Skip.ofFinding f .noCodemod none none)
  /-- A codemod that claims it located nothing. -/
  | missed {region : Span} {i : Nat} {c : Codemod} : f.location.region? ctx.unit = some region →
      Claims ctx f i c → c.locate (view ctx) (some region) = [] →
      OwnSkip ctx f (Skip.ofFinding f .noTarget (some c.id) none)

variable {ctx : PlanContext} {f : Finding} {findings : List Finding} {i : Nat} {c : Codemod}
variable {b : Bid} {s : Span} {skip : Skip} {region : Span}

theorem mem_applicable : (i, c) ∈ applicable ctx ↔ TakesPart ctx i c := by
  rw [applicable, List.mem_filterMap]
  constructor
  · rintro ⟨j, hactive, hj⟩
    split at hj
    case h_2 => cases hj
    case h_1 d hlisted =>
      split at hj
      case isFalse => cases hj
      case isTrue happlies =>
        cases hj
        exact ⟨hlisted, hactive, happlies⟩
  · rintro ⟨hlisted, hactive, happlies⟩
    refine ⟨i, hactive, ?_⟩
    simp only [hlisted, happlies, if_true]

/-- The codemods that are asked about a finding. -/
theorem mem_claimants :
    (i, c) ∈ (applicable ctx).filter (fun (_, c) => c.rules.contains f.rule) ↔
      Claims ctx f i c := by
  rw [List.mem_filter, mem_applicable, List.contains_iff_mem]
  exact ⟨fun h => ⟨h.1, h.2⟩, fun h => ⟨h.1, h.2⟩⟩

/-! ## One answer -/

theorem mem_bids_answer : b ∈ (answer ctx f region i c).1 ↔
    b.codemod = i ∧ b.site ∈ c.locate (view ctx) (some region) ∧ b.finding = some f.id := by
  rw [answer]
  split
  case h_1 hnone => simp [hnone]
  case h_2 =>
    rw [List.mem_map]
    constructor
    · rintro ⟨site, hsite, rfl⟩
      exact ⟨rfl, hsite, rfl⟩
    · rintro ⟨rfl, hsite, hfinding⟩
      exact ⟨b.site, hsite, by rw [← hfinding]⟩

theorem mem_skips_answer : skip ∈ (answer ctx f region i c).2 ↔
    c.locate (view ctx) (some region) = [] ∧
      skip = Skip.ofFinding f .noTarget (some c.id) none := by
  rw [answer]
  split
  case h_1 hnone => simp [hnone]
  case h_2 hsome =>
    constructor
    · intro hskip
      cases hskip
    · rintro ⟨hnone, -⟩
      exact absurd hnone hsome

/-! ## The answers to a finding -/

/-- **The bids for a finding** are those of the codemods that claim it. -/
theorem mem_bids_ofFinding : b ∈ (ofFinding ctx f).1 ↔
    ∃ region c, f.location.region? ctx.unit = some region ∧ Claims ctx f b.codemod c ∧
      b.site ∈ c.locate (view ctx) (some region) ∧ b.finding = some f.id := by
  rw [ofFinding]
  split
  case h_1 hnone => simp [hnone]
  case h_2 region hregion =>
    have hclaims := @mem_claimants ctx f
    split
    case h_1 hnobody =>
      rw [hnobody] at hclaims
      constructor
      · intro hb
        cases hb
      · rintro ⟨region', c, -, hc, -⟩
        exact absurd (hclaims.2 hc) List.not_mem_nil
    case h_2 =>
      simp only [List.mem_flatMap, List.mem_map]
      constructor
      · rintro ⟨-, ⟨⟨i, c⟩, hic, rfl⟩, hb⟩
        obtain ⟨rfl, hsite, hfinding⟩ := mem_bids_answer.1 hb
        exact ⟨region, c, hregion, hclaims.1 hic, hsite, hfinding⟩
      · rintro ⟨region', c, hregion', hc, hsite, hfinding⟩
        obtain rfl : region = region' := Option.some.inj (hregion.symm.trans hregion')
        exact ⟨_, ⟨(b.codemod, c), hclaims.2 hc, rfl⟩, mem_bids_answer.2 ⟨rfl, hsite, hfinding⟩⟩

/-- **The skips for a finding** are its own. -/
theorem mem_skips_ofFinding : skip ∈ (ofFinding ctx f).2 ↔ OwnSkip ctx f skip := by
  rw [ofFinding]
  split
  case h_1 hnone =>
    rw [List.mem_singleton]
    constructor
    · rintro rfl
      exact OwnSkip.outside hnone
    · rintro (- | ⟨hregion, -⟩ | ⟨hregion, -, -⟩)
      · rfl
      · cases hnone.symm.trans hregion
      · cases hnone.symm.trans hregion
  case h_2 region hregion =>
    have hclaims := @mem_claimants ctx f
    split
    case h_1 hnobody =>
      rw [hnobody] at hclaims
      have hnone : ∀ i c, ¬ Claims ctx f i c := fun i c hc =>
        absurd (hclaims.2 hc) List.not_mem_nil
      rw [List.mem_singleton]
      constructor
      · rintro rfl
        exact OwnSkip.unclaimed hregion hnone
      · rintro (hout | - | ⟨-, hc, -⟩)
        · cases hout.symm.trans hregion
        · rfl
        · exact absurd hc (hnone _ _)
    case h_2 hsome =>
      simp only [List.mem_flatMap, List.mem_map]
      constructor
      · rintro ⟨-, ⟨⟨i, c⟩, hic, rfl⟩, hskip⟩
        obtain ⟨hnothing, rfl⟩ := mem_skips_answer.1 hskip
        exact OwnSkip.missed hregion (hclaims.1 hic) hnothing
      · rintro (hout | ⟨-, hnone⟩ | ⟨hregion', hc, hnothing⟩)
        · cases hout.symm.trans hregion
        · obtain ⟨⟨i, c⟩, hic⟩ := List.exists_mem_of_ne_nil _ hsome
          exact absurd (hclaims.1 hic) (hnone i c)
        · obtain rfl : region = _ := Option.some.inj (hregion.symm.trans hregion')
          exact ⟨_, ⟨(_, _), hclaims.2 hc, rfl⟩, mem_skips_answer.2 ⟨hnothing, rfl⟩⟩

/-! ## All bids -/

theorem mem_scanned : b ∈ scanned ctx ↔ b.finding = none ∧
    ∃ c, TakesPart ctx b.codemod c ∧ c.scans ∧ b.site ∈ c.locate (view ctx) none := by
  simp only [scanned, List.mem_flatMap, List.mem_filter, List.mem_map]
  constructor
  · rintro ⟨⟨i, c⟩, ⟨hic, hscans⟩, site, hsite, rfl⟩
    exact ⟨rfl, c, mem_applicable.1 hic, hscans, hsite⟩
  · rintro ⟨hfinding, c, htakes, hscans, hsite⟩
    exact ⟨(b.codemod, c), ⟨mem_applicable.2 htakes, hscans⟩, b.site, hsite, by rw [← hfinding]⟩

theorem mem_bids : b ∈ bids ctx findings ↔
    (∃ f ∈ findings, b ∈ (ofFinding ctx f).1) ∨ b ∈ scanned ctx := by
  rw [bids, List.mem_append, List.mem_flatMap]
  simp only [List.mem_map, exists_exists_and_eq_and]

/-- **Pairs are bid for that were located**, and no others. -/
theorem mem_keys_bids :
    (i, s) ∈ (bids ctx findings).map Bid.key ↔ Located ctx findings i s := by
  rw [List.mem_map]
  constructor
  · rintro ⟨b, hb, hkey⟩
    obtain ⟨rfl, rfl⟩ := Prod.mk.inj hkey
    rcases mem_bids.1 hb with ⟨f, hf, hbid⟩ | hscan
    · obtain ⟨region, c, hregion, hc, hsite, -⟩ := mem_bids_ofFinding.1 hbid
      exact Or.inl ⟨f, hf, region, c, hregion, hc, b.site, hsite, rfl⟩
    · obtain ⟨-, c, htakes, hscans, hsite⟩ := mem_scanned.1 hscan
      exact Or.inr ⟨c, htakes, hscans, b.site, hsite, rfl⟩
  · rintro (⟨f, hf, region, c, hregion, hc, site, hsite, rfl⟩ |
      ⟨c, htakes, hscans, site, hsite, rfl⟩)
    · refine ⟨⟨i, site, some f.id⟩, mem_bids.2 (Or.inl ⟨f, hf, ?_⟩), rfl⟩
      exact mem_bids_ofFinding.2 ⟨region, c, hregion, hc, hsite, rfl⟩
    · refine ⟨⟨i, site, none⟩, mem_bids.2 (Or.inr ?_), rfl⟩
      exact mem_scanned.2 ⟨rfl, c, htakes, hscans, hsite⟩

/-- **A finding bids for a pair** when the codemod located the span for
it. -/
theorem exists_bid_for_iff {id : String} :
    (∃ b ∈ bids ctx findings, b.key = (i, s) ∧ b.finding = some id) ↔
      ∃ f ∈ findings, f.id = id ∧ LocatedFor ctx f i s := by
  constructor
  · rintro ⟨b, hb, hkey, hfinding⟩
    obtain ⟨rfl, rfl⟩ := Prod.mk.inj hkey
    rcases mem_bids.1 hb with ⟨f, hf, hbid⟩ | hscan
    · obtain ⟨region, c, hregion, hc, hsite, hid⟩ := mem_bids_ofFinding.1 hbid
      have hsame : f.id = id := Option.some.inj (hid.symm.trans hfinding)
      exact ⟨f, hf, hsame, region, c, hregion, hc, b.site, hsite, rfl⟩
    · cases (mem_scanned.1 hscan).1.symm.trans hfinding
  · rintro ⟨f, hf, rfl, region, c, hregion, hc, site, hsite, rfl⟩
    refine ⟨⟨i, site, some f.id⟩, mem_bids.2 (Or.inl ⟨f, hf, ?_⟩), rfl, rfl⟩
    exact mem_bids_ofFinding.2 ⟨region, c, hregion, hc, hsite, rfl⟩

/-- What was located was located by a codemod that takes part. -/
theorem Located.takesPart (h : Located ctx findings i s) : ∃ c, TakesPart ctx i c := by
  rcases h with ⟨f, -, region, c, -, hc, -⟩ | ⟨c, htakes, -⟩
  · exact ⟨c, hc.takesPart⟩
  · exact ⟨c, htakes⟩

/-- **A plan reads a context through its unit, its answers and its sifting**:
contexts that agree on these have the same plan. -/
theorem ofFindings_congr {other : PlanContext} (hunit : other.unit = ctx.unit)
    (hanswers : ∀ f, ofFinding other f = ofFinding ctx f)
    (hscanned : scanned other = scanned ctx)
    (hsift : ∀ c ∈ candidates (bids ctx findings), sift other c = sift ctx c) :
    ofFindings other findings = ofFindings ctx findings := by
  have hbids : bids other findings = bids ctx findings := by
    rw [bids, bids, hscanned, funext hanswers]
  have hsifted : sifted other findings = sifted ctx findings := by
    rw [sifted, sifted, hbids, List.map_congr_left hsift]
  have hfound : found other findings = found ctx findings := by
    rw [found, found, hsifted]
  have haway : turnedAway other findings = turnedAway ctx findings := by
    rw [turnedAway, turnedAway, hsifted]
  rw [ofFindings, ofFindings, hfound, haway, hunit, funext hanswers]

end Plan

end Remedy
