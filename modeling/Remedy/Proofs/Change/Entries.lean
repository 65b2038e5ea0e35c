import Mathlib.Data.List.Basic
import Remedy.Proofs.Change.Bids
import Remedy.Proofs.Change.Records
/-!
# From candidates to records

Every candidate leaves one record, at whatever exit: it is turned away
(`turnedEntries`), it loses against another match (`lostEntries`) or it is
executed (`doneEntries`). The matches of the three are those of all
candidates, once, and their records are what a plan and an execution tell
(`exists_entries`).
-/

namespace Remedy

namespace Plan

variable {ctx : PlanContext} {cs : List Candidate} {c : Candidate} {findings : List Finding}

/-! ## Candidates that are turned away -/

/-- The matches of candidates that are turned away, with their skips. -/
def turnedEntries (ctx : PlanContext) (cs : List Candidate) : List (Match × Record) :=
  cs.filterMap fun c =>
    match sift ctx c with
    | .error skip => some (toMatch ctx c, .skip skip)
    | .ok _ => none

/-- **A candidate is turned away or competes**, and never both. -/
theorem perm_turnedEntries (ctx : PlanContext) (cs : List Candidate) :
    ((turnedEntries ctx cs).map Prod.fst ++ (cs.map (sift ctx)).filterMap Except.toOption).Perm
      (cs.map (toMatch ctx)) := by
  induction cs with
  | nil => exact List.Perm.refl []
  | cons c cs ih =>
    rw [turnedEntries, List.map_cons, List.map_cons]
    cases hsift : sift ctx c with
    | error skip =>
      rw [List.filterMap_cons_some (by rw [hsift]), List.filterMap_cons_none rfl]
      exact ih.cons (toMatch ctx c)
    | ok m =>
      -- what competes stands behind all that is turned away, so it has to be moved ahead
      have hkept : Except.toOption (Except.ok m : Except Skip Match) = some (toMatch ctx c) := by
        rw [← eq_toMatch_of_sift hsift]
        rfl
      rw [List.filterMap_cons_none (by rw [hsift]), List.filterMap_cons_some hkept]
      exact List.perm_middle.trans (ih.cons (toMatch ctx c))

theorem snd_turnedEntries (ctx : PlanContext) (findings : List Finding) :
    (turnedEntries ctx (candidates (bids ctx findings))).map Prod.snd =
      (turnedAway ctx findings).map Record.skip := by
  rw [turnedEntries, turnedAway, sifted, List.filterMap_map, List.map_filterMap,
    List.map_filterMap]
  congr 1
  funext c
  rw [Function.comp_apply]
  cases sift ctx c <;> rfl

theorem accounts_turnedEntries : ∀ e ∈ turnedEntries ctx cs, Record.Accounts e.1 e.2 := by
  intro e he
  obtain ⟨c, -, hc⟩ := List.mem_filterMap.1 he
  split at hc
  case h_2 => cases hc
  case h_1 skip hsift =>
    cases hc
    exact accounts_of_sift hsift

/-! ## Matches that lost -/

/-- The matches that lost, with their skips. -/
def lostEntries (unit : SourceUnit) (defeats : List Defeat) : List (Match × Record) :=
  defeats.map fun d => (d.loser, .skip (d.skip unit))

theorem accounts_lostEntries {unit : SourceUnit} {defeats : List Defeat} :
    ∀ e ∈ lostEntries unit defeats, Record.Accounts e.1 e.2 := by
  intro e he
  obtain ⟨d, -, rfl⟩ := List.mem_map.1 he
  exact accounts_defeat unit d

end Plan

/-! ## Matches that are executed -/

namespace Execution

variable {ctx : CodemodContext} {catalog : Catalog} {found : List Match}

/-- The matches that are executed, with what came of them. -/
def doneEntries (ctx : CodemodContext) (catalog : Catalog) (found : List Match) :
    List (Match × Record) :=
  (found.mergeSort fun a b => (a.order b).isLE).filterMap fun m =>
    (ofMatch? ctx catalog m).map fun o => (m, o.record)

/-- **Something comes of every match** whose codemod is in the catalog. -/
theorem perm_doneEntries (h : ∀ m ∈ found, ∃ c, catalog[m.codemod]? = some c) :
    ((doneEntries ctx catalog found).map Prod.fst).Perm found := by
  have hperm := List.mergeSort_perm found fun a b => (a.order b).isLE
  -- none of the matches falls out, so only their order differs
  suffices hsame : (doneEntries ctx catalog found).map Prod.fst =
      found.mergeSort fun a b => (a.order b).isLE by
    rw [hsame]
    exact hperm
  rw [doneEntries, List.map_filterMap]
  have hsome : ∀ m ∈ found.mergeSort fun a b => (a.order b).isLE,
      (((ofMatch? ctx catalog m).map fun o => (m, o.record)).map Prod.fst) = some m := by
    intro m hm
    obtain ⟨c, hc⟩ := h m (hperm.mem_iff.1 hm)
    obtain ⟨o, ho⟩ := Option.isSome_iff_exists.1 (@isSome_ofMatch? ctx catalog m c hc)
    rw [ho]
    rfl
  rw [List.filterMap_congr hsome, List.filterMap_some]

theorem snd_doneEntries (ctx : CodemodContext) (catalog : Catalog) (found : List Match) :
    (doneEntries ctx catalog found).map Prod.snd =
      (outcomes ctx catalog found).map Outcome.record := by
  rw [doneEntries, outcomes, List.map_filterMap, List.map_filterMap]
  congr 1
  funext m
  cases ofMatch? ctx catalog m <;> rfl

theorem accounts_doneEntries :
    ∀ e ∈ doneEntries ctx catalog found, Record.Accounts e.1 e.2 := by
  intro e he
  obtain ⟨m, -, hm⟩ := List.mem_filterMap.1 he
  obtain ⟨o, ho, rfl⟩ := Option.map_eq_some_iff.1 hm
  exact accounts_ofMatch? ho

/-- Outcomes by their kinds. -/
theorem perm_records (os : List Outcome) :
    (os.map Outcome.record).Perm ((os.filterMap Outcome.change?).map Record.change ++
      (os.filterMap Outcome.error?).map Record.error ++
        (os.filterMap Outcome.skip?).map Record.skip) := by
  induction os with
  | nil => exact List.Perm.refl []
  | cons o os ih =>
    cases o with
    | changed c => exact ih.cons (Record.change c)
    | failed e =>
      refine (ih.cons (Record.error e)).trans ?_
      rw [List.append_assoc, List.append_assoc]
      exact List.perm_middle.symm
    | unchanged s => exact (ih.cons (Record.skip s)).trans List.perm_middle.symm

/-- **The outcomes of matches are what an execution tells.** -/
theorem perm_ofMatches (ctx : CodemodContext) (catalog : Catalog) (found : List Match) :
    ((outcomes ctx catalog found).map Outcome.record).Perm
      ((ofMatches ctx catalog found).changes.map Record.change ++
        (ofMatches ctx catalog found).errors.map Record.error ++
          (ofMatches ctx catalog found).unchanged.map Record.skip) := by
  refine (perm_records _).trans ?_
  have hchanges := (List.mergeSort_perm ((outcomes ctx catalog found).filterMap Outcome.change?)
    fun a b => a.span.le b.span).symm.map Record.change
  exact (hchanges.append_right _).append_right _

end Execution

namespace Plan

variable {ctx : PlanContext} {findings : List Finding} {c : Candidate} {id : String}

/-! ## All entries -/

theorem mem_eraseReps_loop {a x : String} {as done : List String} :
    x ∈ List.eraseRepsBy.loop (· == ·) a as done ↔ x = a ∨ x ∈ as ∨ x ∈ done := by
  induction as generalizing a done with
  | nil =>
    rw [List.eraseRepsBy.loop, List.mem_reverse, List.mem_cons]
    simp
  | cons b as ih =>
    rw [List.eraseRepsBy.loop]
    split
    case h_1 hsame =>
      rw [ih, List.mem_cons, eq_of_beq hsame]
      tauto
    case h_2 =>
      rw [ih, List.mem_cons, List.mem_cons]
      tauto

theorem mem_eraseReps {x : String} {as : List String} : x ∈ as.eraseReps ↔ x ∈ as := by
  cases as with
  | nil => exact Iff.rfl
  | cons a as =>
    have hloop : x ∈ (a :: as).eraseReps ↔ x = a ∨ x ∈ as ∨ x ∈ ([] : List String) :=
      mem_eraseReps_loop
    rw [hloop, List.mem_cons]
    simp

/-- Sorting ids loses none. -/
theorem mem_sortedIds {ids : List String} : id ∈ sortedIds ids ↔ id ∈ ids := by
  rw [sortedIds, mem_eraseReps, List.mem_mergeSort]

/-- The codemod of a candidate is in the catalog. -/
theorem exists_listed (hc : c ∈ candidates (bids ctx findings)) :
    ∃ codemod, ctx.catalog[c.codemod]? = some codemod := by
  have hkey : (c.codemod, c.site.span) ∈ (bids ctx findings).map Bid.key :=
    mem_keys_candidates.1 (List.mem_map_of_mem hc)
  obtain ⟨codemod, htakes⟩ := (mem_keys_bids.1 hkey).takesPart
  exact ⟨codemod, htakes.listed⟩

/-- What competes is the match of a candidate. -/
theorem exists_candidate {m : Match} (hm : m ∈ found ctx findings) :
    ∃ c ∈ candidates (bids ctx findings), m = toMatch ctx c := by
  obtain ⟨outcome, houtcome, hkept⟩ := List.mem_filterMap.1 hm
  obtain ⟨c, hc, hsift⟩ := List.mem_map.1 houtcome
  cases outcome with
  | error skip => cases hkept
  | ok n =>
    cases hkept
    exact ⟨c, hc, eq_toMatch_of_sift hsift⟩

/-- **The entries of a file**: every candidate once, each with a record that
accounts for its match. -/
theorem exists_entries (ctx : PlanContext) (findings : List Finding) :
    ∃ entries : List (Match × Record),
      (entries.map Prod.fst).Perm ((candidates (bids ctx findings)).map (toMatch ctx)) ∧
      (entries.map Prod.snd).Perm
        ((turnedAway ctx findings ++ (settle ctx.unit (found ctx findings)).2).map Record.skip ++
          (Execution.outcomes (view ctx) ctx.catalog
            (ofFindings ctx findings).accepted).map Outcome.record) ∧
      ∀ e ∈ entries, Record.Accounts e.1 e.2 := by
  obtain ⟨defeats, hsettling⟩ := settle_spec ctx.unit (found ctx findings)
  have haccepted : (ofFindings ctx findings).accepted.Perm
      (settle ctx.unit (found ctx findings)).1 := List.mergeSort_perm _ _
  have hlisted : ∀ m ∈ (ofFindings ctx findings).accepted,
      ∃ codemod, ctx.catalog[m.codemod]? = some codemod := by
    intro m hm
    have hfound : m ∈ found ctx findings :=
      hsettling.perm.subset (List.mem_append_left _ (haccepted.subset hm))
    obtain ⟨c, hc, rfl⟩ := exists_candidate hfound
    exact exists_listed hc
  refine ⟨turnedEntries ctx (candidates (bids ctx findings)) ++
    (Execution.doneEntries (view ctx) ctx.catalog (ofFindings ctx findings).accepted ++
      lostEntries ctx.unit defeats), ?_, ?_, ?_⟩
  · -- the executed and the lost are those that compete
    have hcompete : ((Execution.doneEntries (view ctx) ctx.catalog
        (ofFindings ctx findings).accepted).map Prod.fst ++
          (lostEntries ctx.unit defeats).map Prod.fst).Perm (found ctx findings) := by
      have hlost : (lostEntries ctx.unit defeats).map Prod.fst = defeats.map Defeat.loser := by
        rw [lostEntries, List.map_map]
        rfl
      rw [hlost]
      exact (((Execution.perm_doneEntries hlisted).trans haccepted).append_right _).trans
        hsettling.perm
    rw [List.map_append, List.map_append]
    exact (hcompete.append_left _).trans (perm_turnedEntries ctx _)
  · have hlost : (lostEntries ctx.unit defeats).map Prod.snd =
        (settle ctx.unit (found ctx findings)).2.map Record.skip := by
      rw [hsettling.skips, lostEntries, List.map_map, List.map_map]
      rfl
    rw [List.map_append, List.map_append, snd_turnedEntries, Execution.snd_doneEntries, hlost,
      List.map_append, List.append_assoc]
    exact List.perm_append_comm.append_left _
  · intro e he
    rcases List.mem_append.1 he with hturned | he'
    · exact accounts_turnedEntries e hturned
    · rcases List.mem_append.1 he' with hdone | hlost
      · exact Execution.accounts_doneEntries e hdone
      · exact accounts_lostEntries e hlost

end Plan

end Remedy
