import Mathlib
import Remedy.Proofs.Run.Certainty
/-!
# Plans in any order

Findings and active codemods come in some order, and a plan is the same for
every other one (`Plan.same_of_permuted`), as long as the codemods are
consistent. The candidates of a file stand in the order of their codemods
and spans, whichever bid came first; consistent codemods give each of them
one site; and the ids of its findings are told in their own order, each
once. So the candidates come out as the same matches and skips, and what is
settled among them is the same. Only the skips that findings have of their
own come in the order of the findings, and they stay the same ones. The
built-in codemods are consistent in every file that was read
(`Plan.consistent_of_mem_builtIn`).
-/

namespace Remedy

/-- The context with other codemods active. -/
def PlanContext.withActive (ctx : PlanContext) (active : List Nat) : PlanContext :=
  { ctx with active := active }

namespace Plan

variable {ctx : PlanContext} {findings others : List Finding} {active : List Nat}

/-! ### Ids in their own order -/

/-- Dropping repetitions of what is in order leaves it in strict order. -/
theorem pairwise_eraseReps_loop {a : String} {as done : List String}
    (hahead : (a :: as).Pairwise (· ≤ ·)) (hdone : (a :: done).Pairwise (· > ·)) :
    (List.eraseRepsBy.loop (· == ·) a as done).Pairwise (· < ·) := by
  induction as generalizing a done with
  | nil =>
    rw [List.eraseRepsBy.loop, List.pairwise_reverse]
    exact hdone
  | cons b as ih =>
    obtain ⟨hfirst, hrest⟩ := List.pairwise_cons.1 hahead
    rw [List.eraseRepsBy.loop]
    split
    case h_1 =>
      refine ih (List.pairwise_cons.2 ⟨fun c hc => ?_, (List.pairwise_cons.1 hrest).2⟩) hdone
      exact hfirst c (List.mem_cons_of_mem b hc)
    case h_2 hother =>
      have hlt : a < b := lt_of_le_of_ne (hfirst b List.mem_cons_self) (by simpa using hother)
      refine ih hrest (List.pairwise_cons.2 ⟨fun c hc => ?_, hdone⟩)
      rcases List.mem_cons.1 hc with rfl | hmem
      · exact hlt
      · exact ((List.pairwise_cons.1 hdone).1 c hmem).trans hlt

/-- **Ids are told in strict order.** -/
theorem pairwise_sortedIds (ids : List String) : (sortedIds ids).Pairwise (· < ·) := by
  have hsorted : (ids.mergeSort (· ≤ ·)).Pairwise (· ≤ ·) := by
    refine (List.pairwise_mergeSort ?_ ?_ ids).imp of_decide_eq_true
    · intro a b c hab hbc
      exact decide_eq_true ((of_decide_eq_true hab).trans (of_decide_eq_true hbc))
    · intro a b
      simpa using le_total a b
  rw [sortedIds]
  cases hids : ids.mergeSort (· ≤ ·) with
  | nil => exact List.Pairwise.nil
  | cons a as => exact pairwise_eraseReps_loop (hids ▸ hsorted) (List.pairwise_singleton _ a)

/-- **Which ids there are decides how they are told.** -/
theorem sortedIds_congr {ids ids' : List String} (h : ∀ id, id ∈ ids ↔ id ∈ ids') :
    sortedIds ids = sortedIds ids' := by
  have hmem : ∀ id, id ∈ sortedIds ids ↔ id ∈ sortedIds ids' := by
    intro id
    rw [mem_sortedIds, mem_sortedIds, h]
  have hnodup : ∀ ids, (sortedIds ids).Nodup := fun ids => (pairwise_sortedIds ids).imp ne_of_lt
  exact ((List.perm_ext_iff_of_nodup (hnodup _) (hnodup _)).2 hmem).eq_of_pairwise
    (fun a b _ _ hab hba => absurd hba hab.asymm) (pairwise_sortedIds ids) (pairwise_sortedIds ids')

/-! ### Candidates of the same bids -/

/-- **Which pairs are bid for decides how the candidates stand.** -/
theorem map_key_candidates_congr {bids bids' : List Bid}
    (h : ∀ k, k ∈ bids.map Bid.key ↔ k ∈ bids'.map Bid.key) :
    (candidates bids).map Candidate.key = (candidates bids').map Candidate.key := by
  have hmem : ∀ k, k ∈ (candidates bids).map Candidate.key ↔
      k ∈ (candidates bids').map Candidate.key := by
    intro k
    rw [mem_keys_candidates, mem_keys_candidates, h]
  have hahead : ∀ bids, ((candidates bids).map Candidate.key).Pairwise Ahead :=
    fun bids => List.pairwise_map.2 (entered_candidates bids).inOrder
  exact ((List.perm_ext_iff_of_nodup (nodup_keys_candidates _) (nodup_keys_candidates _)).2
    hmem).eq_of_pairwise (fun k l _ _ hkl hlk => absurd rfl (hkl.trans hlk).ne)
    (hahead bids) (hahead bids')

/-- Candidates of the same pairs are mapped to the same, one by one. -/
theorem map_eq_of_keys {β : Type} {f g : Candidate → β} {as bs : List Candidate}
    (hkeys : as.map Candidate.key = bs.map Candidate.key)
    (h : ∀ a ∈ as, ∀ b ∈ bs, a.key = b.key → f a = g b) : as.map f = bs.map g := by
  induction as generalizing bs with
  | nil =>
    rw [List.map_eq_nil_iff.1 hkeys.symm]
    rfl
  | cons a as ih =>
    cases bs with
    | nil => cases hkeys
    | cons b bs =>
      obtain ⟨hkey, hrest⟩ := List.cons.inj hkeys
      rw [List.map_cons, List.map_cons, h a List.mem_cons_self b List.mem_cons_self hkey,
        ih hrest fun a' ha b' hb => h a' (List.mem_cons_of_mem _ ha) b' (List.mem_cons_of_mem _ hb)]

/-! ### The bids of a file -/

/-- Which codemods are active decides which of them take part. -/
theorem takesPart_withActive (hactive : ctx.active.Perm active) {i : Nat} {c : Codemod} :
    TakesPart (ctx.withActive active) i c ↔ TakesPart ctx i c := by
  constructor
  · rintro ⟨hlisted, hin, happlies⟩
    exact ⟨hlisted, hactive.mem_iff.2 hin, happlies⟩
  · rintro ⟨hlisted, hin, happlies⟩
    exact ⟨hlisted, hactive.mem_iff.1 hin, happlies⟩

theorem claims_withActive (hactive : ctx.active.Perm active) {f : Finding} {i : Nat}
    {c : Codemod} : Claims (ctx.withActive active) f i c ↔ Claims ctx f i c := by
  constructor
  · rintro ⟨htakes, hhandles⟩
    exact ⟨(takesPart_withActive hactive).1 htakes, hhandles⟩
  · rintro ⟨htakes, hhandles⟩
    exact ⟨(takesPart_withActive hactive).2 htakes, hhandles⟩

/-- **The bids are the same ones**, in whatever order they come. -/
theorem mem_bids_withActive (hfindings : findings.Perm others)
    (hactive : ctx.active.Perm active) {b : Bid} :
    b ∈ bids (ctx.withActive active) others ↔ b ∈ bids ctx findings := by
  have hview : view (ctx.withActive active) = view ctx := rfl
  have hunit : (ctx.withActive active).unit = ctx.unit := rfl
  simp only [mem_bids, mem_bids_ofFinding, mem_scanned, takesPart_withActive hactive,
    claims_withActive hactive, hview, hunit, hfindings.mem_iff]

/-- **The candidates come to the same**, if the codemods are consistent: the
site of each is the one that its codemod located at its span, and its
findings are those of the bids for its pair. -/
theorem sifted_withActive (hconsistent : ∀ c ∈ ctx.catalog, Consistent ctx c)
    (hfindings : findings.Perm others) (hactive : ctx.active.Perm active) :
    sifted (ctx.withActive active) others = sifted ctx findings := by
  have hbids : ∀ b, b ∈ bids (ctx.withActive active) others ↔ b ∈ bids ctx findings :=
    fun b => mem_bids_withActive hfindings hactive
  refine map_eq_of_keys (map_key_candidates_congr fun k => ?_) ?_
  · simp only [List.mem_map, hbids]
  · intro a ha b hb hkey
    obtain ⟨hcodemod, hspan⟩ := Prod.mk.inj hkey
    have hsite : a.site = b.site := by
      obtain ⟨c, hlocated⟩ := exists_located_of_mem_candidates ha
      obtain ⟨d, hlocated'⟩ := exists_located_of_mem_candidates hb
      -- one codemod located both sites
      have hlisted : ctx.catalog[a.codemod]? = some c := hlocated.takesPart.listed
      obtain rfl : c = d := by
        rw [hcodemod, hlocated'.takesPart.listed] at hlisted
        exact (Option.some.inj hlisted).symm
      obtain ⟨region, hin⟩ := hlocated.exists_region
      obtain ⟨region', hin'⟩ := hlocated'.exists_region
      have hneeds := hconsistent c (List.mem_of_getElem? hlisted) _ _ _ hin _ hin' hspan
      cases hsame : a.site
      simp_all
    have hids : sortedIds a.findings = sortedIds b.findings := by
      refine sortedIds_congr fun id => ?_
      rw [mem_findings_candidates ha, mem_findings_candidates hb, hkey]
      simp only [hbids]
    have hmatch : toMatch ctx a = toMatch ctx b := by
      rw [toMatch, toMatch, hcodemod, hsite, hids]
    have hsift : sift (ctx.withActive active) a = sift ctx a := rfl
    rw [hsift, sift, sift, hmatch, hcodemod, hsite]

/-! ### Skips of findings -/

/-- The skips of a finding come in the order of the codemods that claim
it. -/
theorem perm_skips_ofFinding (hactive : ctx.active.Perm active) (f : Finding) :
    (ofFinding (ctx.withActive active) f).2.Perm (ofFinding ctx f).2 := by
  have hclaimants : ∀ asked, ((applicable (ctx.withActive active)).filter asked).Perm
      ((applicable ctx).filter asked) := fun asked => (hactive.symm.filterMap _).filter asked
  have hregion : f.location.region? (ctx.withActive active).unit = f.location.region? ctx.unit :=
    rfl
  rw [ofFinding, ofFinding, hregion]
  cases f.location.region? ctx.unit with
  | none => exact .refl _
  | some region =>
    dsimp only
    split
    case h_1 hnone =>
      have hnobody := ((hclaimants _).symm.trans (.of_eq hnone)).eq_nil
      rw [hnobody]
    case h_2 hsome =>
      split
      case h_1 hnone => exact absurd ((hclaimants _).trans (.of_eq hnone)).eq_nil hsome
      case h_2 => exact ((hclaimants _).map _).flatMap_right _

/-- **The skips that findings have of their own** are the same ones. -/
theorem perm_ownSkips (hfindings : findings.Perm others) (hactive : ctx.active.Perm active) :
    ((others.map (ofFinding (ctx.withActive active))).flatMap (·.2)).Perm
      ((findings.map (ofFinding ctx)).flatMap (·.2)) := by
  simp only [List.flatMap_map]
  exact (List.Perm.flatMap_left others fun f _ => perm_skips_ofFinding hactive f).trans
    (hfindings.symm.flatMap_right _)

/-! ### Plans -/

/-- **The built-in codemods are consistent** in every file that was read:
their sites need what stands in the call around the site, and each place is
in one call only. -/
theorem consistent_of_mem_builtIn {sources : List RawSource} {readers : Readers}
    (hreaders : readers.Regular) (hunit : ctx.unit ∈ Project.units sources readers) :
    ∀ c ∈ Catalog.builtIn, Consistent ctx c := by
  have hcalls : ∀ aim ∈ Codemod.aims, Consistent ctx aim.codemod := fun aim haim =>
    Codemod.Aim.consistent haim fun _ htree =>
      hreaders _ _ (SourceUnit.read_of_mem_units hunit htree)
  intro c hc
  simp only [Catalog.builtIn, List.mem_cons, List.not_mem_nil, or_false] at hc
  simp only [Codemod.aims, List.forall_mem_cons] at hcalls
  rcases hc with rfl | rfl | rfl | rfl
  · exact hcalls.1
  · exact hcalls.2.1
  · exact hcalls.2.2.1
  · intro region region' a ha b hb hspan
    obtain ⟨_, -, rfl⟩ := List.mem_map.1 ha
    obtain ⟨_, -, rfl⟩ := List.mem_map.1 hb
    rfl

/-- **The order of findings and of active codemods does not matter.** Under
codemods that need the same for all sites of one span, a plan for the
findings in another order, and with the active codemods in another one,
accepts the same matches in the same order, each with the ids of its findings
in strict order, and has the same skips. The built-in codemods are such in
every file that was read, by any readers that make regular trees. -/
theorem same_of_permuted (hconsistent : ∀ c ∈ ctx.catalog, Consistent ctx c)
    (hfindings : findings.Perm others) (hactive : ctx.active.Perm active) :
    (ofFindings (ctx.withActive active) others).accepted = (ofFindings ctx findings).accepted ∧
    (ofFindings (ctx.withActive active) others).skipped.Perm (ofFindings ctx findings).skipped ∧
    (∀ m ∈ (ofFindings ctx findings).accepted, m.findings.Pairwise (· < ·)) ∧
    ∀ (sources : List RawSource) (readers : Readers), readers.Regular →
      ctx.unit ∈ Project.units sources readers → ∀ c ∈ Catalog.builtIn, Consistent ctx c := by
  have hsifted := sifted_withActive hconsistent hfindings hactive
  have hfound : found (ctx.withActive active) others = found ctx findings := by
    rw [found, found, hsifted]
  have haway : turnedAway (ctx.withActive active) others = turnedAway ctx findings := by
    rw [turnedAway, turnedAway, hsifted]
  have hunit : (ctx.withActive active).unit = ctx.unit := rfl
  refine ⟨?_, ?_, ?_, fun _ _ => consistent_of_mem_builtIn⟩
  · simp only [ofFindings, hfound, hunit]
  · simp only [ofFindings, hfound, haway, hunit]
    refine (List.mergeSort_perm _ _).trans (.trans ?_ (List.mergeSort_perm _ _).symm)
    exact ((perm_ownSkips hfindings hactive).append_right _).append_right _
  · intro m hm
    have hamong := mem_found.2 ((rankedChoice_accepted ctx findings).among hm)
    obtain ⟨c, -, rfl⟩ := exists_candidate hamong
    exact pairwise_sortedIds c.findings

/-- **Scripts are consistent**: what a site needs is its own span, or
nothing. -/
theorem consistent_toCodemod (s : Script) : Consistent ctx s.toCodemod := by
  intro region region' a ha b hb hspan
  obtain ⟨span, -, rfl⟩ := List.mem_map.1 ha
  obtain ⟨span', -, rfl⟩ := List.mem_map.1 hb
  obtain rfl : span = span' := hspan
  rfl

/-- Two scripts whose sites cross each other. -/
def crossing : List Script :=
  [.putting "outer" "ab" "x" ["R"] 0 0, .putting "inner" "ba" "y" ["R"] 0 0]

/-- Two findings that both scripts claim, and one that nobody claims. -/
def abouts : List Finding :=
  [⟨"b", "tool", "R", ⟨"a.xml"⟩, .lines 0 0, .high, none, []⟩,
   ⟨"c", "tool", "S", ⟨"a.xml"⟩, .lines 0 0, .high, none, []⟩,
   ⟨"a", "tool", "R", ⟨"a.xml"⟩, .lines 0 0, .low, none, []⟩]

/-- The two findings are merged at each site, and the same script wins both
times, forwards and backwards. -/
theorem same_of_permuted_abouts :
    (ofFindings (.ofScripts "abab" crossing) abouts).accepted.map
        (fun m => (m.codemodId, m.findings)) = [("outer", ["a", "b"]), ("outer", ["a", "b"])] ∧
    (ofFindings (.ofScripts "abab" crossing) abouts).skipped.map
        (fun s => (s.reason, s.findings)) = [(.noCodemod, ["c"]), (.conflict, ["a", "b"])] ∧
    (ofFindings ((PlanContext.ofScripts "abab" crossing).withActive [1, 0])
      abouts.reverse).accepted = (ofFindings (.ofScripts "abab" crossing) abouts).accepted ∧
    (ofFindings ((PlanContext.ofScripts "abab" crossing).withActive [1, 0])
      abouts.reverse).skipped.Perm (ofFindings (.ofScripts "abab" crossing) abouts).skipped := by
  have hconsistent : ∀ c ∈ (PlanContext.ofScripts "abab" crossing).catalog,
      Consistent (.ofScripts "abab" crossing) c := by
    intro c hc
    obtain ⟨s, -, rfl⟩ := List.mem_map.1 hc
    exact consistent_toCodemod s
  have hactive : (PlanContext.ofScripts "abab" crossing).active.Perm [1, 0] := by decide
  have hsame := same_of_permuted hconsistent (List.reverse_perm abouts).symm hactive
  exact ⟨by cbv, by cbv, hsame.1, hsame.2.1⟩

end Plan

end Remedy
