import Mathlib
import Remedy.Proofs.Change.Ledger
import Remedy.Proofs.Order
/-!
# The ranked choice

The matches of a file that neither a pattern nor an open type keeps out
compete (`Plan.competing`). A choice among them is ranked when the chosen
ones do not overlap and each of the others overlaps a chosen one that
outranks it. Matches that compete have one ranked choice at most
(`RankedChoice.unique`), by induction on the rank, and taking them up by rank
makes one. So what a plan accepts depends on the matches that compete alone,
and what it tells of the others are their defeats (`ranked_ofFindings`).
-/

namespace Remedy

/-- **A ranked choice among matches that compete**: no two of the chosen
overlap, and a match that is not chosen overlaps a chosen one that outranks
it. -/
structure RankedChoice (competing chosen : Set Match) : Prop where
  among : chosen ⊆ competing
  apart : ∀ a ∈ chosen, ∀ b ∈ chosen, a ≠ b → ¬ a.site.span.overlaps b.site.span
  outranked : ∀ m ∈ competing, m ∉ chosen →
    ∃ a ∈ chosen, a.site.span.overlaps m.site.span ∧ a.Outranks m

namespace RankedChoice

variable {competing s t : Set Match} {m : Match}

/-- What one choice holds the other one holds too, if it holds no match of
higher rank that the first one lacks. -/
theorem mem_of_mem (h : RankedChoice competing s) (h' : RankedChoice competing t)
    (hhigher : ∀ a ∈ competing, a.Outranks m → a ∈ t → a ∈ s) (hm : m ∈ s) : m ∈ t := by
  by_contra hnot
  obtain ⟨a, ha, hover, hrank⟩ := h'.outranked m (h.among hm) hnot
  have has : a ∈ s := hhigher a (h'.among ha) hrank ha
  have hne : a ≠ m := ne_of_irrefl hrank
  exact h.apart a has m hm hne hover

/-- **There is one ranked choice at most.** -/
theorem unique (hfinite : competing.Finite) (h : RankedChoice competing s)
    (h' : RankedChoice competing t) : s = t := by
  have hagree : ∀ m ∈ competing, m ∈ s ↔ m ∈ t := by
    intro m hm
    -- from the highest rank down: both choices hold the same of all that outranks the match
    refine (hfinite.wellFoundedOn (r := Match.Outranks)).induction
      (P := fun m => m ∈ s ↔ m ∈ t) hm ?_
    intro b _ ih
    exact ⟨h.mem_of_mem h' fun a ha hrank => (ih a ha hrank).2,
      h'.mem_of_mem h fun a ha hrank => (ih a ha hrank).1⟩
  apply Set.ext
  intro m
  exact ⟨fun hm => (hagree m (h.among hm)).1 hm, fun hm => (hagree m (h'.among hm)).2 hm⟩

end RankedChoice

namespace Plan

variable {ctx : PlanContext} {findings : List Finding} {c : Candidate} {m : Match} {site : Site}
variable {s : Skip}

/-! ## Matches that compete -/

/-- **A candidate passes**: no pattern keeps its line out, and if its codemod
has to be sure of types, those that its site needs are resolved. -/
structure Passes (ctx : PlanContext) (c : Candidate) : Prop where
  allowed : ctx.filter.allowsLine ctx.unit.path
    ((ctx.unit.position c.site.span.start).line + 1)
  resolved : ∀ codemod, ctx.catalog[c.codemod]? = some codemod → codemod.needsResolution →
    ∀ need ∈ c.site.needs, ∃ r, ctx.symbols.referenceAt? ctx.unit.path need = some r ∧
      r.resolution.gap? = none

/-- **The matches that compete for their sites**: those of candidates that
pass. -/
def competing (ctx : PlanContext) (findings : List Finding) : Set Match :=
  {m | ∃ c ∈ candidates (bids ctx findings), Passes ctx c ∧ m = toMatch ctx c}

theorem unresolvedNeed?_eq_none_iff : unresolvedNeed? ctx site = none ↔
    ∀ need ∈ site.needs, ∃ r, ctx.symbols.referenceAt? ctx.unit.path need = some r ∧
      r.resolution.gap? = none := by
  rw [unresolvedNeed?, List.findSome?_eq_none_iff]
  refine forall₂_congr fun need _ => ?_
  cases ctx.symbols.referenceAt? ctx.unit.path need with
  | none => simp
  | some r => simp

/-- **Candidates are let through that pass**, as their matches. -/
theorem sift_eq_ok_iff : sift ctx c = .ok m ↔ Passes ctx c ∧ m = toMatch ctx c := by
  have hresolved : ((if ((ctx.catalog[c.codemod]?).getD default).needsResolution
      then unresolvedNeed? ctx c.site else none) = none) ↔
      ∀ codemod, ctx.catalog[c.codemod]? = some codemod → codemod.needsResolution →
        ∀ need ∈ c.site.needs, ∃ r, ctx.symbols.referenceAt? ctx.unit.path need = some r ∧
          r.resolution.gap? = none := by
    cases hlisted : ctx.catalog[c.codemod]? with
    | none => simp [default]
    | some codemod =>
      simp only [Option.getD_some, Option.some.injEq, forall_eq', ite_eq_right_iff,
        unresolvedNeed?_eq_none_iff]
  rw [sift]
  constructor
  · intro h
    split at h
    case isTrue => cases h
    case isFalse hallowed =>
      split at h
      case h_1 => cases h
      case h_2 hnone =>
        exact ⟨⟨by simpa using hallowed, hresolved.1 hnone⟩, (Except.ok.inj h).symm⟩
  · rintro ⟨hpasses, rfl⟩
    simp only [hpasses.allowed, hresolved.2 hpasses.resolved, Bool.not_true, Bool.false_eq_true,
      if_false]

theorem mem_found : m ∈ found ctx findings ↔ m ∈ competing ctx findings := by
  rw [found, sifted, List.filterMap_map, List.mem_filterMap]
  refine exists_congr fun c => and_congr_right fun _ => ?_
  rw [← sift_eq_ok_iff, Function.comp_apply]
  cases sift ctx c <;> simp [Except.toOption]

/-- A match competes for what was located. -/
theorem located_of_mem_competing (hm : m ∈ competing ctx findings) :
    Located ctx findings m.codemod m.site.span := by
  obtain ⟨a, ha, -, rfl⟩ := hm
  have hkey : a.key ∈ (bids ctx findings).map Bid.key :=
    mem_keys_candidates.1 (List.mem_map_of_mem ha)
  exact mem_keys_bids.1 hkey

theorem finite_competing (ctx : PlanContext) (findings : List Finding) :
    (competing ctx findings).Finite := by
  refine (List.finite_toSet (found ctx findings)).subset ?_
  intro m hm
  exact mem_found.2 hm

/-- Matches that compete are told apart by their codemods and spans. -/
theorem pairwise_key_found (ctx : PlanContext) (findings : List Finding) :
    (found ctx findings).Pairwise fun a b => a.key ≠ b.key := by
  have hkeys : (candidates (bids ctx findings)).Pairwise fun a b => a.key ≠ b.key :=
    List.pairwise_map.1 (nodup_keys_candidates (bids ctx findings))
  rw [found, sifted, List.filterMap_map]
  refine hkeys.filterMap _ ?_
  intro a b hab m hm n hn
  have hkey : ∀ {c m}, ((sift ctx c).toOption = some m) → m.key = c.key := by
    intro c m hc
    cases hsift : sift ctx c with
    | error skip => rw [hsift] at hc; cases hc
    | ok k =>
      rw [hsift] at hc
      cases hc
      rw [(sift_eq_ok_iff.1 hsift).2]
      rfl
  rw [hkey hm, hkey hn]
  exact hab

/-! ## The choice of a plan -/

theorem mem_accepted :
    m ∈ (ofFindings ctx findings).accepted ↔ m ∈ (settle ctx.unit (found ctx findings)).1 :=
  List.mem_mergeSort

/-- **What a plan settles**: it accepts some of the matches that compete, and
each of the others is defeated once, by an accepted one that outranks it. -/
structure Contest (ctx : PlanContext) (findings : List Finding) (accepted : List Match)
    (defeats : List Defeat) : Prop where
  once : (defeats.map Defeat.loser).Nodup
  losers : ∀ m, m ∈ defeats.map Defeat.loser ↔ m ∈ competing ctx findings ∧ m ∉ accepted
  winners : ∀ d ∈ defeats, d.winner ∈ accepted ∧
    d.winner.site.span.overlaps d.loser.site.span ∧ d.winner.Outranks d.loser

/-- **The accepted and the defeated** are the matches that compete. -/
theorem exists_contest (ctx : PlanContext) (findings : List Finding) :
    ∃ defeats, Contest ctx findings (ofFindings ctx findings).accepted defeats ∧
      (ofFindings ctx findings).accepted ⊆ found ctx findings ∧
      (ofFindings ctx findings).accepted.Pairwise (fun a b => a.key ≠ b.key) ∧
      (settle ctx.unit (found ctx findings)).2 = defeats.map (Defeat.skip ctx.unit) := by
  obtain ⟨defeats, hsettling, hranked⟩ := settle_ranked ctx.unit (found ctx findings)
  have hkeys := (hsettling.perm.pairwise_iff Ne.symm).2 (pairwise_key_found ctx findings)
  obtain ⟨haccepted, hlosers, hapart⟩ := List.pairwise_append.1 hkeys
  have hperm : (ofFindings ctx findings).accepted.Perm
      (settle ctx.unit (found ctx findings)).1 := List.mergeSort_perm _ _
  refine ⟨defeats, ⟨?_, ?_, ?_⟩, ?_, ?_, hsettling.skips⟩
  · exact hlosers.imp fun hkey heq => hkey (congrArg Match.key heq)
  · intro m
    rw [← mem_found, ← hsettling.perm.mem_iff, List.mem_append, mem_accepted]
    constructor
    · intro hm
      exact ⟨Or.inr hm, fun hm' => hapart m hm' m hm rfl⟩
    · rintro ⟨hm | hm, hnot⟩
      · exact absurd hm hnot
      · exact hm
  · intro d hd
    obtain ⟨hwinner, hover⟩ := hsettling.winners d hd
    refine ⟨mem_accepted.2 hwinner, hover, ?_⟩
    -- the two are different matches, so one of them outranks the other
    exact (Match.outranks_or (hapart _ hwinner _ (List.mem_map_of_mem hd))).resolve_right
      (hranked d hd)
  · intro m hm
    exact hsettling.perm.subset (List.mem_append_left _ (hperm.subset hm))
  · exact (hperm.pairwise_iff Ne.symm).2 haccepted

/-- **What a plan accepts is a ranked choice.** -/
theorem rankedChoice_accepted (ctx : PlanContext) (findings : List Finding) :
    RankedChoice (competing ctx findings) {m | m ∈ (ofFindings ctx findings).accepted} := by
  obtain ⟨defeats, hcontest, hfound, -⟩ := exists_contest ctx findings
  refine ⟨fun m hm => mem_found.1 (hfound hm), ?_, ?_⟩
  · have : Std.Symm fun a b : Match => ¬ a.site.span.overlaps b.site.span :=
      ⟨fun _ _ => Span.not_overlaps_symm⟩
    intro a ha b hb hne
    exact (pairwise_accepted ctx findings).forall ha hb hne
  · intro m hm hnot
    obtain ⟨d, hd, rfl⟩ := List.mem_map.1 ((hcontest.losers m).2 ⟨hm, hnot⟩)
    exact ⟨d.winner, hcontest.winners d hd⟩

/-- **A match that competes is accepted** unless one that outranks it overlaps
it. -/
theorem mem_accepted_of_apart (hm : m ∈ competing ctx findings)
    (hapart : ∀ a ∈ competing ctx findings, a.Outranks m → ¬ a.site.span.overlaps m.site.span) :
    m ∈ (ofFindings ctx findings).accepted := by
  have hchoice := rankedChoice_accepted ctx findings
  by_contra hnot
  obtain ⟨a, ha, hover, hrank⟩ := hchoice.outranked m hm hnot
  exact hapart a (hchoice.among ha) hrank hover

/-- **Accepted matches stand in strict order.** -/
theorem pairwise_standsBefore (ctx : PlanContext) (findings : List Finding) :
    (ofFindings ctx findings).accepted.Pairwise Match.StandsBefore := by
  obtain ⟨-, -, -, hkeys, -⟩ := exists_contest ctx findings
  have hsorted : (ofFindings ctx findings).accepted.Pairwise fun a b => (a.order b).isLE :=
    List.pairwise_mergeSort (fun a b c => @Match.isLE_order_trans a b c)
      Match.isLE_order_total _
  refine (hsorted.and hkeys).imp ?_
  intro a b ⟨hle, hkey⟩
  exact (Match.standsBefore_or hkey).resolve_right (Match.isLE_order.1 hle)

/-- Matches in strict order are listed in one way. -/
theorem eq_of_standsBefore {as bs : List Match} (ha : as.Pairwise Match.StandsBefore)
    (hb : bs.Pairwise Match.StandsBefore) (hmem : ∀ m, m ∈ as ↔ m ∈ bs) : as = bs := by
  refine eq_of_pairwise_of_mem_iff (fun a b hab hba => ?_) ha hb hmem
  simp only [Match.StandsBefore] at hab hba
  omega

/-! ## The conflicts of a plan -/

/-- A candidate that is turned away is so by a pattern or an open type. -/
theorem reason_of_mem_turnedAway (h : s ∈ turnedAway ctx findings) :
    s.reason = .excluded ∨ s.reason = .resolutionGap := by
  obtain ⟨outcome, houtcome, hkept⟩ := List.mem_filterMap.1 h
  obtain ⟨c, -, rfl⟩ := List.mem_map.1 houtcome
  split at hkept
  case h_2 => cases hkept
  case h_1 skip hsift =>
    cases hkept
    rw [sift] at hsift
    split at hsift
    case isTrue =>
      rw [← Except.error.inj hsift]
      exact Or.inl rfl
    case isFalse =>
      split at hsift
      case h_1 =>
        rw [← Except.error.inj hsift]
        exact Or.inr rfl
      case h_2 => cases hsift

/-- **The conflicts that a plan tells of are those that were settled.** -/
theorem perm_conflicts (ctx : PlanContext) (findings : List Finding) :
    ((ofFindings ctx findings).skipped.filter fun s => s.reason = .conflict).Perm
      (settle ctx.unit (found ctx findings)).2 := by
  obtain ⟨defeats, hsettling⟩ := settle_spec ctx.unit (found ctx findings)
  have hown : ∀ s ∈ FileResult.ownSkips ctx findings,
      ¬ (decide (s.reason = .conflict)) = true := by
    intro s hs hconflict
    refine FileResult.not_isOfMatch_ownSkips s hs ?_
    rw [of_decide_eq_true hconflict]
    rfl
  have haway : ∀ s ∈ turnedAway ctx findings, ¬ (decide (s.reason = .conflict)) = true := by
    intro s hs
    rcases reason_of_mem_turnedAway hs with hreason | hreason <;> simp [hreason]
  have hlost : ∀ s ∈ (settle ctx.unit (found ctx findings)).2,
      decide (s.reason = .conflict) = true := by
    intro s hs
    rw [hsettling.skips] at hs
    obtain ⟨d, -, rfl⟩ := List.mem_map.1 hs
    rfl
  refine ((FileResult.perm_skipped_plan ctx findings).filter _).trans ?_
  rw [List.filter_append, List.filter_append, List.filter_eq_nil_iff.2 hown,
    List.filter_eq_nil_iff.2 haway, List.filter_eq_self.2 hlost, List.nil_append, List.nil_append]

/-! ## The plan -/

/-- **A plan follows the ranks.** -/
structure Ranked (ctx : PlanContext) (findings : List Finding) (plan : Plan) : Prop where
  /-- What it accepts is the one ranked choice among the matches that
  compete. -/
  choice : ∀ chosen : Set Match, RankedChoice (competing ctx findings) chosen ↔
    chosen = {m | m ∈ plan.accepted}
  /-- Each match that competes and is not accepted has one conflict, which
  names the codemod of an accepted match that overlaps and outranks it. -/
  conflicts : ∃ defeats, Contest ctx findings plan.accepted defeats ∧
    (plan.skipped.filter fun s => s.reason = .conflict).Perm
      (defeats.map (Defeat.skip ctx.unit))
  /-- Candidates that do not pass are not accepted. -/
  turnedAway : ∀ c ∈ candidates (bids ctx findings), ¬ Passes ctx c →
    toMatch ctx c ∉ plan.accepted
  /-- The accepted matches stand in order, -/
  ordered : plan.accepted.Pairwise Match.StandsBefore
  /-- with one at most for each codemod and span. -/
  once : (plan.accepted.map Match.key).Nodup

/-- **The plan of a file follows the ranks**, and the matches that compete
decide alone what it accepts: no candidate that was turned away displaces
another one. -/
theorem ranked_ofFindings (ctx : PlanContext) (findings : List Finding) :
    Ranked ctx findings (ofFindings ctx findings) ∧
      ∀ ctx' findings', competing ctx' findings' = competing ctx findings →
        (ofFindings ctx' findings').accepted = (ofFindings ctx findings).accepted := by
  have hchoice := rankedChoice_accepted ctx findings
  have hfinite := finite_competing ctx findings
  obtain ⟨defeats, hcontest, hfound, hkeys, hskips⟩ := exists_contest ctx findings
  refine ⟨⟨?_, ?_, ?_, pairwise_standsBefore ctx findings, List.pairwise_map.2 hkeys⟩, ?_⟩
  · intro chosen
    constructor
    · intro h
      exact h.unique hfinite hchoice
    · rintro rfl
      exact hchoice
  · exact ⟨defeats, hcontest, hskips ▸ perm_conflicts ctx findings⟩
  · intro c hc hnot haccepted
    obtain ⟨a, ha, hpasses, heq⟩ := mem_found.1 (hfound haccepted)
    -- a candidate is told by its match
    have hsame : a = c := (entered_candidates (bids ctx findings)).inOrder.eq_of_key_eq ha hc
      (congrArg Match.key heq).symm
    exact hnot (hsame ▸ hpasses)
  · intro ctx' findings' hsame
    have hchoice' := rankedChoice_accepted ctx' findings'
    rw [hsame] at hchoice'
    refine eq_of_standsBefore (pairwise_standsBefore ctx' findings')
      (pairwise_standsBefore ctx findings) fun m => ?_
    exact Set.ext_iff.1 (hchoice'.unique hfinite hchoice) m

/-- Three scripts with sites in a row, each of which overlaps the next one. -/
def rowOfSites : List Script :=
  [.putting "left" "ab" "x" [] 0 0, .putting "middle" "bc" "y" [] 0 0,
    .putting "right" "cd" "z" [] 0 0]

/-- A script of high priority for the whole text, which needs a type that is
not resolved. -/
def unresolvedSite : Script :=
  ⟨"whole", "abcd", [], 9, true, true, false, "", .replace "" 0 0, none⟩

/-- The middle one of the row loses against the first, so the last one is
free to stay; and the site that is not resolved displaces none. -/
theorem ranked_rowOfSites :
    (ofFindings (.ofScripts "abcd" rowOfSites) []).accepted.map Match.codemodId =
      ["left", "right"] ∧
    Ranked (.ofScripts "abcd" rowOfSites) [] (ofFindings (.ofScripts "abcd" rowOfSites) []) ∧
    competing (.ofScripts "abcd" (rowOfSites ++ [unresolvedSite])) [] =
      competing (.ofScripts "abcd" rowOfSites) [] ∧
    (ofFindings (.ofScripts "abcd" (rowOfSites ++ [unresolvedSite])) []).accepted =
      (ofFindings (.ofScripts "abcd" rowOfSites) []).accepted := by
  have hfound : found (.ofScripts "abcd" (rowOfSites ++ [unresolvedSite])) [] =
      found (.ofScripts "abcd" rowOfSites) [] := by cbv
  have hcompeting : competing (.ofScripts "abcd" (rowOfSites ++ [unresolvedSite])) [] =
      competing (.ofScripts "abcd" rowOfSites) [] := by
    apply Set.ext
    intro m
    rw [← mem_found, ← mem_found, hfound]
  exact ⟨by cbv, (ranked_ofFindings _ []).1, hcompeting, (ranked_ofFindings _ []).2 _ _ hcompeting⟩

end Plan

end Remedy
