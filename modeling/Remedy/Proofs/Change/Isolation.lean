import Mathlib
import Remedy.Proofs.Change.Choice
import Remedy.Proofs.Change.Trace
/-!
# Failures are isolated

A plan asks codemods where they would change a file and never how
(`Plan.ofFindings_blind`). So if a codemod makes its changes in another way,
the plan stays; and since each match is made on its own, what comes of the
matches of other codemods stays too. If the codemod fails on every site, all
that is left of it are its errors, one for each of its matches
(`failures_isolated`).
-/

namespace Remedy

/-- The codemod without its changes. -/
def Codemod.blind (c : Codemod) : Codemod := { c with apply := fun _ _ => .error (.causes []) }

namespace PlanContext

/-- The context with no changes in the catalog. -/
def blind (ctx : PlanContext) : PlanContext :=
  { ctx with catalog := ctx.catalog.map Codemod.blind }

/-- The context in which the codemod at a place of the catalog makes its
changes in another way. -/
def withApply (ctx : PlanContext) (k : Nat)
    (apply : CodemodContext → Site → Except Refusal Replacement) : PlanContext :=
  { ctx with catalog := ctx.catalog.modify k fun c => { c with apply := apply } }

end PlanContext

namespace Plan

variable {ctx : PlanContext} {findings : List Finding} {f : Finding} {c : Candidate}

/-! ## A plan does not see changes -/

theorem applicable_blind (ctx : PlanContext) :
    applicable ctx.blind = (applicable ctx).map fun e => (e.1, e.2.blind) := by
  rw [applicable, applicable, List.map_filterMap]
  congr 1
  funext i
  simp only [PlanContext.blind, List.getElem?_map]
  cases ctx.catalog[i]? with
  | none => rfl
  | some c =>
    simp only [Option.map_some]
    by_cases happlies : c.appliesTo ctx.unit
    · simp only [happlies, Codemod.blind, if_true, Option.map_some]
    · simp only [happlies, Codemod.blind, Bool.false_eq_true, if_false, Option.map_none]

/-- The codemods of one kind are the same, if it is no matter of changes. -/
theorem filter_applicable_blind (ctx : PlanContext) {p : Nat × Codemod → Bool}
    (hp : ∀ e, p (e.1, e.2.blind) = p e) :
    (applicable ctx.blind).filter p =
      ((applicable ctx).filter p).map fun e => (e.1, e.2.blind) := by
  rw [applicable_blind, List.filter_map]
  exact congrArg (fun q => ((applicable ctx).filter q).map _) (funext hp)

theorem ofFinding_blind (ctx : PlanContext) (f : Finding) :
    ofFinding ctx.blind f = ofFinding ctx f := by
  have hregion : f.location.region? ctx.blind.unit = f.location.region? ctx.unit := rfl
  rw [ofFinding, ofFinding, hregion]
  cases f.location.region? ctx.unit with
  | none => rfl
  | some region =>
    -- the codemods that claim the finding are the same, and they answer the same
    have hclaimants := filter_applicable_blind ctx (p := fun e => e.2.rules.contains f.rule)
      fun _ => rfl
    simp only [hclaimants]
    cases (applicable ctx).filter fun e => e.2.rules.contains f.rule with
    | nil => rfl
    | cons e claimants =>
      simp only [List.map_cons, List.map_map]
      rfl

theorem scanned_blind (ctx : PlanContext) : scanned ctx.blind = scanned ctx := by
  rw [scanned, applicable_blind, List.filter_map, List.flatMap_map]
  rfl

theorem toMatch_blind (ctx : PlanContext) (c : Candidate) :
    toMatch ctx.blind c = toMatch ctx c := by
  rw [toMatch, toMatch]
  simp only [PlanContext.blind, List.getElem?_map]
  cases ctx.catalog[c.codemod]? <;> rfl

theorem sift_blind (ctx : PlanContext) (c : Candidate) : sift ctx.blind c = sift ctx c := by
  have hneeds : ((ctx.blind.catalog[c.codemod]?).getD default).needsResolution =
      ((ctx.catalog[c.codemod]?).getD default).needsResolution := by
    simp only [PlanContext.blind, List.getElem?_map]
    cases ctx.catalog[c.codemod]? <;> rfl
  rw [sift, sift, toMatch_blind]
  simp only [hneeds]
  rfl

/-- **A plan does not see how changes are made.** -/
theorem ofFindings_blind (ctx : PlanContext) (findings : List Finding) :
    ofFindings ctx.blind findings = ofFindings ctx findings := by
  have hunit : ctx.blind.unit = ctx.unit := rfl
  exact ofFindings_congr hunit (ofFinding_blind ctx) (scanned_blind ctx) fun c _ => sift_blind ctx c

variable {k : Nat} {apply : CodemodContext → Site → Except Refusal Replacement}

theorem blind_withApply (ctx : PlanContext) (k : Nat)
    (apply : CodemodContext → Site → Except Refusal Replacement) :
    (ctx.withApply k apply).blind = ctx.blind := by
  have hcatalog : (ctx.catalog.modify k fun c => { c with apply := apply }).map Codemod.blind =
      ctx.catalog.map Codemod.blind := by
    apply List.ext_getElem?
    intro i
    rw [List.getElem?_map, List.getElem?_map, List.getElem?_modify]
    cases ctx.catalog[i]? with
    | none => rfl
    | some c => by_cases hik : k = i <;> simp [hik, Codemod.blind]
  rw [PlanContext.blind, PlanContext.blind, PlanContext.withApply, hcatalog]

/-- **The plan stays** when a codemod makes its changes in another way. -/
theorem ofFindings_withApply (ctx : PlanContext) (findings : List Finding) :
    ofFindings (ctx.withApply k apply) findings = ofFindings ctx findings := by
  rw [← ofFindings_blind, blind_withApply, ofFindings_blind]

/-- The codemod of an accepted match is in the catalog. -/
theorem exists_listed_accepted {m : Match} (hm : m ∈ (ofFindings ctx findings).accepted) :
    ∃ codemod, ctx.catalog[m.codemod]? = some codemod := by
  obtain ⟨-, -, hfound, -⟩ := exists_contest ctx findings
  obtain ⟨c, hc, rfl⟩ := exists_candidate (hfound hm)
  exact exists_listed hc

end Plan

/-! ## What comes of matches -/

/-- **A way to make changes fails on a site**: it refuses, breaks down, or
answers with a replacement that does not stay inside the site. -/
def Execution.FailsOn (ctx : CodemodContext)
    (apply : CodemodContext → Site → Except Refusal Replacement) (site : Site) : Prop :=
  ∀ r, apply ctx site = .ok r → ¬ fits ctx.unit site r.span

namespace Execution

variable {ctx : PlanContext} {view : CodemodContext} {k : Nat} {m : Match} {β : Type}
variable {apply : CodemodContext → Site → Except Refusal Replacement}

/-- What comes of the match of another codemod stays. -/
theorem ofMatch?_withApply_of_ne (h : m.codemod ≠ k) :
    ofMatch? view (ctx.withApply k apply).catalog m = ofMatch? view ctx.catalog m := by
  have hlisted : (ctx.withApply k apply).catalog[m.codemod]? = ctx.catalog[m.codemod]? := by
    rw [PlanContext.withApply, List.getElem?_modify]
    simp only [Ne.symm h, if_false, id_map']
  rw [ofMatch?, ofMatch?, hlisted]

/-- **A match of a codemod that fails comes to an error.** -/
theorem ofMatch?_withApply_of_eq (h : m.codemod = k) {c : Codemod}
    (hlisted : ctx.catalog[m.codemod]? = some c) (hfails : FailsOn view apply m.site) :
    ∃ failure, ofMatch? view (ctx.withApply k apply).catalog m =
      some (.failed (.change m.codemodId m.site.span m.findings failure)) := by
  have hbroken : (ctx.withApply k apply).catalog[m.codemod]? = some { c with apply := apply } := by
    rw [PlanContext.withApply, List.getElem?_modify, hlisted, h]
    simp
  rw [ofMatch?, hbroken, Option.map_some]
  cases hanswer : apply view m.site with
  | error refusal => exact ⟨refusal.toFailure, by simp only [hanswer]⟩
  | ok r =>
    refine ⟨.escapes r.span.start r.span.stop m.site.span.start m.site.span.stop, ?_⟩
    simp only [hanswer, ofReplacement, hfails r hanswer, Bool.false_eq_true, if_false]

end Execution

namespace Trace

variable {ctx : PlanContext} {findings : List Finding} {k : Nat} {β : Type}
variable {apply : CodemodContext → Site → Except Refusal Replacement}
variable {part : Outcome → Option β}

/-- **What comes of the matches of other codemods stays.** -/
theorem filter_comeOf_withApply (ctx : PlanContext) (findings : List Finding) (k : Nat)
    (apply : CodemodContext → Site → Except Refusal Replacement) (part : Outcome → Option β) :
    (comeOf (ctx.withApply k apply) findings part).filter (fun e => e.1.codemod ≠ k) =
      (comeOf ctx findings part).filter fun e => e.1.codemod ≠ k := by
  have hview : Plan.view (ctx.withApply k apply) = Plan.view ctx := rfl
  rw [comeOf, comeOf, Plan.ofFindings_withApply, hview, Execution.gathered, Execution.gathered,
    List.filter_filterMap, List.filter_filterMap]
  congr 1
  funext m
  rw [Option.filter_map, Option.filter_map]
  by_cases hk : m.codemod = k
  · -- nothing that comes of a match of the codemod is kept
    have hnone : ∀ o : Option β,
        o.filter ((fun e : Match × β => decide (e.1.codemod ≠ k)) ∘ fun b => (m, b)) = none := by
      intro o
      cases o <;> simp [hk]
    rw [hnone, hnone]
  · rw [Execution.ofMatch?_withApply_of_ne hk]

/-- **All that comes of a codemod that fails are errors.** -/
theorem codemod_ne_of_mem_comeOf (hfails : ∀ site, Execution.FailsOn (Plan.view ctx) apply site)
    (hpart : ∀ e, part (.failed e) = none) :
    ∀ e ∈ comeOf (ctx.withApply k apply) findings part, e.1.codemod ≠ k := by
  rintro ⟨m, b⟩ hmem hk
  obtain ⟨hm, o, ho, hb⟩ := Execution.mem_gathered.1 hmem
  rw [Plan.ofFindings_withApply] at hm
  obtain ⟨c, hlisted⟩ := Plan.exists_listed_accepted hm
  obtain ⟨failure, hfailed⟩ := Execution.ofMatch?_withApply_of_eq hk hlisted (hfails m.site)
  cases ho.symm.trans hfailed
  cases (hpart _).symm.trans hb

/-- Of the outcomes that are no errors those of other codemods are left. -/
theorem comeOf_withApply (hfails : ∀ site, Execution.FailsOn (Plan.view ctx) apply site)
    (hpart : ∀ e, part (.failed e) = none) :
    comeOf (ctx.withApply k apply) findings part =
      (comeOf ctx findings part).filter fun e => e.1.codemod ≠ k := by
  rw [← filter_comeOf_withApply ctx findings k apply part]
  refine (List.filter_eq_self.2 ?_).symm
  intro e he
  exact decide_eq_true (codemod_ne_of_mem_comeOf hfails hpart e he)

/-- **Each match of a codemod that fails has one error.** -/
theorem fst_errors_withApply (hfails : ∀ site, Execution.FailsOn (Plan.view ctx) apply site) :
    (((ofFindings (ctx.withApply k apply) findings).errors.filter
        fun e => e.1.codemod = k).map Prod.fst) =
      (Plan.ofFindings ctx findings).accepted.filter fun m => m.codemod = k := by
  have hsorted : ((Plan.ofFindings ctx findings).accepted.mergeSort fun a b => (a.order b).isLE) =
      (Plan.ofFindings ctx findings).accepted :=
    List.mergeSort_of_pairwise (List.pairwise_mergeSort
      (fun a b c => @Match.isLE_order_trans a b c) Match.isLE_order_total _)
  have hview : Plan.view (ctx.withApply k apply) = Plan.view ctx := rfl
  simp only [ofFindings, comeOf, Plan.ofFindings_withApply, hview, Execution.gathered, hsorted,
    List.filter_filterMap, List.map_filterMap]
  rw [← List.filterMap_eq_filter]
  refine List.filterMap_congr fun m hm => ?_
  by_cases hk : m.codemod = k
  · obtain ⟨c, hlisted⟩ := Plan.exists_listed_accepted hm
    obtain ⟨failure, hfailed⟩ := Execution.ofMatch?_withApply_of_eq hk hlisted (hfails m.site)
    rw [hfailed]
    simp [Outcome.error?, hk]
  · have hnone : ∀ o : Option FileError,
        (o.map fun b => (m, b)).filter (fun e => decide (e.1.codemod = k)) = none := by
      intro o
      cases o <;> simp [hk]
    rw [hnone]
    simp [hk, Option.guard]

end Trace

/-! ## The result of a file -/

/-- **Failures are isolated**: with a codemod that fails, the changes, the
errors of other codemods and the skips are those of the trace without it,
and it has an error for each of its matches. -/
structure Trace.Isolated (k : Nat) (accepted : List Match) (trace broken : Trace) : Prop where
  changes : broken.changes = trace.changes.filter fun e => e.1.codemod ≠ k
  others : (broken.errors.filter fun e => e.1.codemod ≠ k) =
    trace.errors.filter fun e => e.1.codemod ≠ k
  own : (broken.errors.filter fun e => e.1.codemod = k).map Prod.fst =
    accepted.filter fun m => m.codemod = k
  about : ∀ e ∈ broken.errors, ∃ failure,
    e.2 = .change e.1.codemodId e.1.site.span e.1.findings failure
  skipped : broken.skipped = trace.skipped.filter fun e => e.1.all fun m => m.codemod ≠ k

namespace FileResult

variable {ctx : PlanContext} {findings : List Finding} {k : Nat}
variable {apply : CodemodContext → Site → Except Refusal Replacement}

theorem isolated_withApply (hfails : ∀ site, Execution.FailsOn (Plan.view ctx) apply site) :
    Trace.Isolated k (Plan.ofFindings ctx findings).accepted (Trace.ofFindings ctx findings)
      (Trace.ofFindings (ctx.withApply k apply) findings) where
  changes := by
    have := transCmp_on Span.order fun e : Match × Change => e.2.span
    have hcome : Trace.comeOf (ctx.withApply k apply) findings Outcome.change? = _ :=
      Trace.comeOf_withApply hfails fun _ => rfl
    calc (Trace.ofFindings (ctx.withApply k apply) findings).changes
      _ = (Trace.comeOf (ctx.withApply k apply) findings Outcome.change?).mergeSort
          fun a b => a.2.span.le b.2.span := rfl
      _ = ((Trace.comeOf ctx findings Outcome.change?).filter fun e => e.1.codemod ≠ k).mergeSort
          fun a b => a.2.span.le b.2.span := by rw [hcome]
      _ = _ := (filter_mergeSort (fun a b : Match × Change => a.2.span.order b.2.span) _ _).symm
  others := Trace.filter_comeOf_withApply ctx findings k apply Outcome.error?
  own := Trace.fst_errors_withApply hfails
  about := by
    rintro ⟨m, e⟩ he
    have haccounts := Execution.accounts_ofMatch? (Trace.mem_errors.1 he).2
    obtain ⟨ids, failure, rfl⟩ := haccounts.isAbout
    have hids : ids = m.findings := haccounts.findings
    exact ⟨failure, by rw [hids]⟩
  skipped := by
    have := transCmp_on Skip.order fun e : Option Match × Skip => e.2
    have hcome : Trace.comeOf (ctx.withApply k apply) findings Outcome.skip? = _ :=
      Trace.comeOf_withApply hfails fun _ => rfl
    have hskips : Trace.skips (ctx.withApply k apply) findings =
        (Trace.skips ctx findings).filter fun e => e.1.all fun m => m.codemod ≠ k := by
      have hplan : ∀ skips : List Skip, skips.filter ((fun e : Option Match × Skip =>
          e.1.all fun m => decide (m.codemod ≠ k)) ∘ fun s => (none, s)) = skips :=
        fun _ => List.filter_eq_self.2 fun _ _ => rfl
      rw [Trace.skips, Trace.skips, hcome, Plan.ofFindings_withApply, List.filter_append,
        List.filter_map, List.filter_map, hplan]
      rfl
    calc (Trace.ofFindings (ctx.withApply k apply) findings).skipped
      _ = (Trace.skips (ctx.withApply k apply) findings).mergeSort
          fun a b => (a.2.order b.2).isLE := rfl
      _ = ((Trace.skips ctx findings).filter fun e => e.1.all fun m => m.codemod ≠ k).mergeSort
          fun a b => (a.2.order b.2).isLE := by rw [hskips]
      _ = _ := (filter_mergeSort (fun a b : Option Match × Skip => a.2.order b.2) _ _).symm

/-- **Failures are isolated.** If one codemod fails on every site, the plan
of a file stays. The changes, the errors of other codemods and the skips of
its result are those that come of other matches, in their order; the codemod
itself has one error for each of its accepted matches and neither a change
nor a skip for want of one. A file that could not be parsed has the same
result. -/
theorem failures_isolated (ctx : PlanContext) (findings : List Finding) (k : Nat)
    (apply : CodemodContext → Site → Except Refusal Replacement)
    (hfails : ∀ site, Execution.FailsOn (Plan.view ctx) apply site) :
    Plan.ofFindings (ctx.withApply k apply) findings = Plan.ofFindings ctx findings ∧
    (ctx.unit.parseError? = none →
      (Trace.ofFindings ctx findings).LeadsTo ctx findings (ofFindings ctx findings) ∧
      (Trace.ofFindings (ctx.withApply k apply) findings).LeadsTo (ctx.withApply k apply) findings
        (ofFindings (ctx.withApply k apply) findings) ∧
      Trace.Isolated k (Plan.ofFindings ctx findings).accepted (Trace.ofFindings ctx findings)
        (Trace.ofFindings (ctx.withApply k apply) findings)) ∧
    ∀ error, ctx.unit.parseError? = some error →
      ofFindings (ctx.withApply k apply) findings = ofFindings ctx findings := by
  refine ⟨Plan.ofFindings_withApply ctx findings, fun hparsed => ⟨?_, ?_, ?_⟩, ?_⟩
  · exact Trace.leadsTo_ofFindings hparsed
  · exact Trace.leadsTo_ofFindings hparsed
  · exact isolated_withApply hfails
  · intro error herror
    have herror' : (ctx.withApply k apply).unit.parseError? = some error := herror
    rw [ofFindings, ofFindings, ofFindingsBy_of_failed _ herror, ofFindingsBy_of_failed _ herror']
    rfl

/-- Two scripts that change a text side by side. -/
def sideBySide : PlanContext :=
  .ofScripts "ab" [.putting "first" "a" "x" [] 0 0, .putting "second" "b" "y" [] 0 0]

/-- The first one breaks down, and the change of the second one is made. -/
theorem failures_isolated_sideBySide :
    (ofFindings sideBySide []).changes.map Change.replacement = ["x", "y"] ∧
    (ofFindings (sideBySide.withApply 0 fun _ _ => .error (.breakdown (some "boom"))) []).errors =
      [.change "first" ⟨0, 1⟩ [] (.brokeDown "boom")] ∧
    (ofFindings (sideBySide.withApply 0 fun _ _ => .error (.breakdown (some "boom")))
      []).changes.map Change.replacement = ["y"] ∧
    Trace.Isolated 0 (Plan.ofFindings sideBySide []).accepted (Trace.ofFindings sideBySide [])
      (Trace.ofFindings
        (sideBySide.withApply 0 fun _ _ => .error (.breakdown (some "boom"))) []) := by
  have hisolated := failures_isolated sideBySide [] 0
    (fun _ _ => .error (.breakdown (some "boom"))) fun _ _ h => by cases h
  exact ⟨by cbv, by cbv, by cbv, (hisolated.2.1 rfl).2.2⟩

end FileResult

end Remedy
