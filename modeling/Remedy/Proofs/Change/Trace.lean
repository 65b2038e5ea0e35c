import Remedy.Proofs.Change.Applied
import Remedy.Proofs.Order
/-!
# Where a result comes from

The changes and the errors of a result come of matches that its plan
accepted, and so do some of its skips. A trace is the result with the match
that each of these comes of (`Trace.ofFindings`); without the matches it is
what the result tells (`Trace.leadsTo_ofFindings`). Changes that look alike,
or two codemods of one name, are told apart in a trace.
-/

namespace Remedy

namespace Execution

variable {ctx : CodemodContext} {catalog : Catalog} {found : List Match} {m : Match}
variable {β : Type} {part : Outcome → Option β} {b : β}

/-- The outcomes of one kind, each with the match that it comes of, in the
order of their sites. -/
def gathered (ctx : CodemodContext) (catalog : Catalog) (found : List Match)
    (part : Outcome → Option β) : List (Match × β) :=
  (found.mergeSort fun a b => (a.order b).isLE).filterMap fun m =>
    ((ofMatch? ctx catalog m).bind part).map fun b => (m, b)

theorem snd_gathered (ctx : CodemodContext) (catalog : Catalog) (found : List Match)
    (part : Outcome → Option β) :
    (gathered ctx catalog found part).map Prod.snd =
      (outcomes ctx catalog found).filterMap part := by
  rw [gathered, outcomes, List.map_filterMap, List.filterMap_filterMap]
  congr 1
  funext m
  rw [Option.map_map]
  exact Option.map_id'

theorem mem_gathered : (m, b) ∈ gathered ctx catalog found part ↔
    m ∈ found ∧ ∃ o, ofMatch? ctx catalog m = some o ∧ part o = some b := by
  rw [gathered, List.mem_filterMap]
  simp only [List.mem_mergeSort, Option.map_eq_some_iff, Option.bind_eq_some_iff, Prod.mk.injEq]
  constructor
  · rintro ⟨_, hm, _, hb, rfl, rfl⟩
    exact ⟨hm, hb⟩
  · rintro ⟨hm, hb⟩
    exact ⟨m, hm, b, hb, rfl, rfl⟩

end Execution

/-- **What a result tells, and what it comes of**: changes and errors with
their matches, and skips with a match if its change was tried. -/
structure Trace where
  changes : List (Match × Change)
  errors : List (Match × FileError)
  skipped : List (Option Match × Skip)

namespace Trace

/-- The outcomes of one kind of the matches that a plan accepts. -/
def comeOf (ctx : PlanContext) (findings : List Finding) (part : Outcome → Option β) :
    List (Match × β) :=
  Execution.gathered (Plan.view ctx) ctx.catalog (Plan.ofFindings ctx findings).accepted part

/-- The skips of a plan, and those of matches that change nothing. -/
def skips (ctx : PlanContext) (findings : List Finding) : List (Option Match × Skip) :=
  (Plan.ofFindings ctx findings).skipped.map (fun s => (none, s)) ++
    (comeOf ctx findings Outcome.skip?).map fun e => (some e.1, e.2)

/-- **The trace of a file.** -/
def ofFindings (ctx : PlanContext) (findings : List Finding) : Trace where
  changes := (comeOf ctx findings Outcome.change?).mergeSort fun a b => a.2.span.le b.2.span
  errors := comeOf ctx findings Outcome.error?
  skipped := (skips ctx findings).mergeSort fun a b => (a.2.order b.2).isLE

end Trace

/-- **A trace leads to a result**: it tells the same in the same order, of
the matches that the plan accepts and of its skips. -/
structure Trace.LeadsTo (ctx : PlanContext) (findings : List Finding) (trace : Trace)
    (result : FileResult) : Prop where
  changes : trace.changes.map Prod.snd = result.changes
  errors : trace.errors.map Prod.snd = result.errors
  skipped : trace.skipped.map Prod.snd = result.skipped
  changed : ∀ m c, (m, c) ∈ trace.changes ↔ m ∈ (Plan.ofFindings ctx findings).accepted ∧
    Execution.ofMatch? (Plan.view ctx) ctx.catalog m = some (.changed c)
  failed : ∀ m e, (m, e) ∈ trace.errors ↔ m ∈ (Plan.ofFindings ctx findings).accepted ∧
    Execution.ofMatch? (Plan.view ctx) ctx.catalog m = some (.failed e)
  unchanged : ∀ m s, (some m, s) ∈ trace.skipped ↔
    m ∈ (Plan.ofFindings ctx findings).accepted ∧
      Execution.ofMatch? (Plan.view ctx) ctx.catalog m = some (.unchanged s)
  planned : ∀ s, (none, s) ∈ trace.skipped ↔ s ∈ (Plan.ofFindings ctx findings).skipped

namespace Trace

variable {ctx : PlanContext} {findings : List Finding} {m : Match}

theorem snd_comeOf (ctx : PlanContext) (findings : List Finding) (part : Outcome → Option β) :
    (comeOf ctx findings part).map Prod.snd = (Execution.outcomes (Plan.view ctx) ctx.catalog
      (Plan.ofFindings ctx findings).accepted).filterMap part :=
  Execution.snd_gathered _ _ _ part

/-- The changes of a trace come of their matches. -/
theorem mem_changes {c : Change} : (m, c) ∈ (ofFindings ctx findings).changes ↔
    m ∈ (Plan.ofFindings ctx findings).accepted ∧
      Execution.ofMatch? (Plan.view ctx) ctx.catalog m = some (.changed c) := by
  refine List.mem_mergeSort.trans (Execution.mem_gathered.trans ?_)
  simp only [Outcome.change?_eq_some_iff, exists_eq_right]

/-- The errors of a trace come of their matches. -/
theorem mem_errors {e : FileError} : (m, e) ∈ (ofFindings ctx findings).errors ↔
    m ∈ (Plan.ofFindings ctx findings).accepted ∧
      Execution.ofMatch? (Plan.view ctx) ctx.catalog m = some (.failed e) := by
  refine Execution.mem_gathered.trans ?_
  simp only [Outcome.error?_eq_some_iff, exists_eq_right]

/-- The skips of a trace come of their matches, or of the plan. -/
theorem mem_skipped {origin : Option Match} {s : Skip} :
    (origin, s) ∈ (ofFindings ctx findings).skipped ↔
      (origin = none ∧ s ∈ (Plan.ofFindings ctx findings).skipped) ∨
      ∃ m ∈ (Plan.ofFindings ctx findings).accepted, origin = some m ∧
        Execution.ofMatch? (Plan.view ctx) ctx.catalog m = some (.unchanged s) := by
  have htried : ∀ m, (m, s) ∈ comeOf ctx findings Outcome.skip? ↔
      m ∈ (Plan.ofFindings ctx findings).accepted ∧
        Execution.ofMatch? (Plan.view ctx) ctx.catalog m = some (.unchanged s) := by
    intro m
    refine Execution.mem_gathered.trans ?_
    simp only [Outcome.skip?_eq_some_iff, exists_eq_right]
  refine List.mem_mergeSort.trans ?_
  rw [skips, List.mem_append, List.mem_map, List.mem_map]
  constructor
  · rintro (⟨_, hs, heq⟩ | ⟨⟨m, _⟩, hm, heq⟩) <;> obtain ⟨rfl, rfl⟩ := Prod.mk.inj heq
    · exact Or.inl ⟨rfl, hs⟩
    · obtain ⟨haccepted, ho⟩ := (htried m).1 hm
      exact Or.inr ⟨m, haccepted, rfl, ho⟩
  · rintro (⟨rfl, hs⟩ | ⟨m, hm, rfl, ho⟩)
    · exact Or.inl ⟨s, hs, rfl⟩
    · exact Or.inr ⟨(m, s), (htried m).2 ⟨hm, ho⟩, rfl⟩

/-- **The trace of a parsed file leads to its result.** -/
theorem leadsTo_ofFindings (hparsed : ctx.unit.parseError? = none) :
    (ofFindings ctx findings).LeadsTo ctx findings (FileResult.ofFindings ctx findings) := by
  rw [FileResult.ofFindings, FileResult.ofFindingsBy_of_parsed _ hparsed]
  refine ⟨?_, snd_comeOf ctx findings _, ?_, fun m c => mem_changes, fun m e => mem_errors, ?_, ?_⟩
  · have hsort := List.map_mergeSort (r := fun a b : Match × Change => a.2.span.le b.2.span)
      (s := fun a b : Change => a.span.le b.span) (f := Prod.snd)
      (l := comeOf ctx findings Outcome.change?) fun _ _ _ _ => rfl
    rw [snd_comeOf] at hsort
    exact hsort
  · have hskips : (skips ctx findings).map Prod.snd = (Plan.ofFindings ctx findings).skipped ++
        (FileResult.executed ctx findings).unchanged := by
      rw [skips, List.map_append, List.map_map, List.map_map]
      refine congrArg₂ _ (List.map_id' _) (snd_comeOf ctx findings Outcome.skip?)
    have hsort := List.map_mergeSort
      (r := fun a b : Option Match × Skip => (a.2.order b.2).isLE)
      (s := fun a b : Skip => (a.order b).isLE) (f := Prod.snd) (l := skips ctx findings)
      fun _ _ _ _ => rfl
    rw [hskips] at hsort
    exact hsort
  · intro m s
    simp [mem_skipped]
  · intro s
    simp [mem_skipped]

end Trace

end Remedy
