import Mathlib
import Remedy.Proofs.Change.Sites
import Remedy.Proofs.Codemod.Aims
import Remedy.Proofs.Run.Cancellation
import Remedy.Proofs.Symbols.References
/-!
# No change on a guess

The codemods for calls locate sites of which they do not know whether the
type is the one they aim at, and leave it to the plan to stop these. It
does (`Workload.certain_of_mem_results`): a change of such a codemod is made
at a place it aims at, and the name that it depends on stands for its type.
A site whose name has no reference, or a gap for one, ends as a skip.
-/

namespace Remedy

/-! ### Units as they are read -/

namespace SourceUnit

variable {unit : SourceUnit} {tree : Java.Tree}

/-- **The tree of a unit that was read is that of its text.** -/
theorem read_of_mem_units {sources : List RawSource} {readers : Readers}
    (hunit : unit ∈ Project.units sources readers) (h : unit.tree? = some tree) :
    readers.java unit.text = .ok tree := by
  obtain ⟨raw, -, hraw⟩ := List.mem_filterMap.1 hunit
  obtain ⟨language, -, rfl⟩ := Option.map_eq_some_iff.1 hraw
  have hcontent := content_of_tree? h
  cases hread : raw.content with
  | error fault =>
    rw [hread] at hcontent
    cases hcontent
  | ok bytes =>
    simp only [hread, ofBytes] at hcontent ⊢
    split at hcontent
    · cases hcontent
    · exact read_of_contentOf hcontent

end SourceUnit

/-! ### The catalog -/

namespace Codemod

variable {ctx : PlanContext} {findings : List Finding} {aim : Aim}

/-- The built-in codemods are told apart by their ids. -/
theorem eq_of_id_eq {c d : Codemod} (hc : c ∈ Catalog.builtIn) (hd : d ∈ Catalog.builtIn)
    (hid : c.id = d.id) : c = d := by
  simp only [Catalog.builtIn, List.mem_cons, List.not_mem_nil, or_false] at hc hd
  rcases hc with rfl | rfl | rfl | rfl <;> rcases hd with rfl | rfl | rfl | rfl <;>
    first | rfl | exact absurd hid (by decide)

theorem mem_builtIn_of_mem_aims (haim : aim ∈ aims) : aim.codemod ∈ Catalog.builtIn := by
  simp only [aims, List.mem_cons, List.not_mem_nil, or_false] at haim
  rcases haim with rfl | rfl | rfl
  · exact List.mem_cons_self
  · exact List.mem_cons_of_mem _ List.mem_cons_self
  · exact List.mem_cons_of_mem _ (List.mem_cons_of_mem _ List.mem_cons_self)

/-- **The codemods for calls are consistent** in a file with a regular
tree. -/
theorem Aim.consistent (haim : aim ∈ aims)
    (hregular : ∀ tree, ctx.unit.tree? = some tree → tree.Regular ctx.unit.text) :
    Plan.Consistent ctx aim.codemod := by
  intro region region' a ha b hb hspan
  obtain ⟨place, name, hat, rfl, -⟩ := exists_at_of_mem_locate haim ha
  obtain ⟨place', name', hat', rfl, -⟩ := exists_at_of_mem_locate haim hb
  exact congrArg (fun span => [span]) (span_unique haim hregular hat hat' hspan)

/-- A name that is resolved, and may stand for a type, stands for it. -/
theorem resolution_of_typeIs {view : CodemodContext} {span : Span} {fullName : String}
    {r : Reference} (hmay : view.typeIs span fullName ≠ .no)
    (hr : view.symbols.referenceAt? view.unit.path span = some r)
    (hgap : r.resolution.gap? = none) :
    r.resolution = .type fullName := by
  rw [CodemodContext.typeIs, hr, Option.map_some] at hmay
  cases hresolution : r.resolution with
  | gap reason =>
    rw [hresolution] at hgap
    cases hgap
  | typeParameter =>
    rw [hresolution] at hmay
    exact absurd rfl hmay
  | type resolved =>
    rw [hresolution] at hmay
    by_contra hother
    refine hmay (if_neg fun hsame => hother ?_)
    rw [hsame]

/-! ### Results -/

/-- **A result is certain of what a codemod aims at.** -/
structure Aim.Certain (aim : Aim) (ctx : PlanContext) (findings : List Finding)
    (result : FileResult) : Prop where
  /-- A change is made at a place that is aimed at, and the table has the
  type for the name that the change depends on. -/
  changed : ∀ change ∈ result.changes, change.codemod = aim.codemod.id →
    ∃ place name, aim.InFile (Plan.view ctx) place name ∧ change.span = place.span ∧
      ∃ r, ctx.symbols.referenceAt? ctx.unit.path name.span = some r ∧
        r.resolution = .type aim.fullName
  /-- A located site is such a place, and needs such a name. -/
  located : ∀ i site, Plan.LocatedSite ctx findings i aim.codemod site →
    ∃ place name, aim.InFile (Plan.view ctx) place name ∧ site = ⟨place.span, [name.span]⟩
  /-- If the name has no reference, or a gap for one, the site ends as a
  skip -/
  skipped : ∀ i site, Plan.LocatedSite ctx findings i aim.codemod site →
    ∀ need ∈ site.needs, Plan.Open ctx need → ∃ skip ∈ result.skipped,
      skip.codemod = some aim.codemod.id ∧ skip.span = some site.span ∧
        skip.reason = Plan.awayReason ctx site
  /-- and is not changed. -/
  unchanged : ∀ i site, Plan.LocatedSite ctx findings i aim.codemod site →
    ∀ need ∈ site.needs, Plan.Open ctx need → ∀ change ∈ result.changes,
      change.codemod = aim.codemod.id → change.span ≠ site.span

/-- A change of a codemod for calls is made at a site that it located and
that passed. -/
theorem Aim.exists_site (haim : aim ∈ aims) (hcatalog : ctx.catalog = .builtIn) {change : Change}
    (h : change ∈ (FileResult.ofFindings ctx findings).changes)
    (hid : change.codemod = aim.codemod.id) :
    ∃ a, Plan.LocatedSite ctx findings a.codemod aim.codemod a.site ∧ Plan.Passes ctx a ∧
      change.span = a.site.span := by
  obtain ⟨a, -, c, r, hlocated, hpasses, happly, hspan, hcodemod⟩ :=
    FileResult.exists_site_of_mem_changes h
  have hlisted := hlocated.takesPart.listed
  rw [hcatalog] at hlisted
  obtain rfl := eq_of_id_eq (List.mem_of_getElem? hlisted) (mem_builtIn_of_mem_aims haim)
    (hcodemod.symm.trans hid)
  exact ⟨a, hlocated, hpasses, hspan.trans (span_of_apply haim happly)⟩

/-- A located site is at a place that the codemod aims at. -/
theorem Aim.exists_at_of_located (haim : aim ∈ aims) {i : Nat} {site : Site}
    (h : Plan.LocatedSite ctx findings i aim.codemod site) :
    ∃ place name, aim.InFile (Plan.view ctx) place name ∧ site = ⟨place.span, [name.span]⟩ ∧
      (Plan.view ctx).typeIs name.span aim.fullName ≠ .no := by
  obtain ⟨region, hsite⟩ := h.exists_region
  exact exists_at_of_mem_locate haim hsite

/-- **The result of a file is certain of what a built-in codemod aims
at.** -/
theorem Aim.certain_ofFindings (haim : aim ∈ aims) (hcatalog : ctx.catalog = .builtIn)
    (hregular : ∀ tree, ctx.unit.tree? = some tree → tree.Regular ctx.unit.text) :
    aim.Certain ctx findings (FileResult.ofFindings ctx findings) where
  changed change h hid := by
    obtain ⟨a, hlocated, hpasses, hspan⟩ := exists_site haim hcatalog h hid
    obtain ⟨place, name, hat, hsite, hmay⟩ := exists_at_of_located haim hlocated
    obtain ⟨r, hr, hgap⟩ := hpasses.resolved _ hlocated.takesPart.listed (needsResolution haim)
      name.span (by rw [hsite]; exact List.mem_singleton_self _)
    refine ⟨place, name, hat, ?_, r, hr, resolution_of_typeIs hmay hr hgap⟩
    rw [hspan, hsite]
  located i site h := by
    obtain ⟨place, name, hat, hsite, -⟩ := exists_at_of_located haim h
    exact ⟨place, name, hat, hsite⟩
  skipped i site h need hneed hopen := by
    obtain ⟨-, -, ⟨tree, -, htree, -⟩, -⟩ := exists_at_of_located haim h
    obtain ⟨skip, hskip, habout⟩ := Plan.exists_turnedAway_of_open (consistent haim hregular)
      (needsResolution haim) h hneed hopen
    refine ⟨skip, (FileResult.perm_skipped (SourceUnit.parseError?_of_tree? htree)).mem_iff.2 ?_, habout⟩
    exact List.mem_append_right _ (List.mem_append_left _ (List.mem_append_left _ hskip))
  unchanged i site h need hneed hopen change hchange hid hspan := by
    obtain ⟨a, hlocated, hpasses, hsame⟩ := exists_site haim hcatalog hchange hid
    obtain ⟨region, hsite⟩ := h.exists_region
    obtain ⟨region', hsite'⟩ := hlocated.exists_region
    have hneeds := consistent haim hregular region' region _ hsite' _ hsite (hsame.symm.trans hspan)
    exact Plan.not_passes_of_open hlocated.takesPart.listed (needsResolution haim)
      (hneeds ▸ hneed) hopen hpasses

end Codemod

namespace Workload

/-- **No change on a guess.** In a run with the built-in codemods, over any
files, with any findings, selection and filter, and whether it is stopped or
not, the result of each file is certain of what the codemods for calls aim
at. That is so with any readers that make regular trees, as the standard ones
do. -/
theorem certain_of_mem_results {readers : Readers} (hreaders : readers.Regular)
    (sources : List RawSource) (findings : List Finding) (active : List Nat)
    (filter : PathFilter) (cancellation : Cancellation) :
    let w : Workload := ⟨Project.units sources readers, findings, .builtIn, active, filter⟩
    ∀ result ∈ (w.transform cancellation).results, ∃ unit ∈ w.units,
      result = w.resultOf w.symbolTable unit ∧ ∀ aim ∈ Codemod.aims,
        aim.Certain (w.contextOf w.symbolTable unit) (w.findingsOn unit) result := by
  intro w result hresult
  rw [results_transform] at hresult
  obtain ⟨unit, hunit, rfl⟩ := List.mem_map.1 hresult
  have hmem : unit ∈ w.units := List.mem_of_mem_filter hunit
  refine ⟨unit, hmem, rfl, fun aim haim => ?_⟩
  exact Codemod.Aim.certain_ofFindings haim rfl fun tree htree =>
    hreaders _ _ (SourceUnit.read_of_mem_units hmem htree)

/-- Two files that make a random number generator. Only the first one says
which. -/
def dice : List RawSource :=
  [⟨⟨"Dice.java"⟩, .ok "import java.util.*;class Dice\x7b\x7bnew Random();\x7d\x7d".toUTF8.toList⟩,
   ⟨⟨"Cup.java"⟩, .ok "class Cup\x7b\x7bnew Random();\x7d\x7d".toUTF8.toList⟩]

/-- The run over the two files. -/
def diceRun : Workload := ⟨Project.units dice, [], .builtIn, [0, 1, 2, 3], ⟨[], []⟩⟩

/-- The generator that is known is replaced, and the other one skipped. -/
theorem certain_of_mem_results_dice :
    ∃ rolled ∈ (diceRun.transform .never).results, ∃ hidden ∈ (diceRun.transform .never).results,
      rolled.changes.map Change.replacement = ["java.security.SecureRandom"] ∧
      hidden.changes = [] ∧ hidden.skipped.map Skip.reason = [.resolutionGap] ∧
      (∃ unit ∈ diceRun.units, rolled = diceRun.resultOf diceRun.symbolTable unit ∧
        Codemod.Aim.generator.Certain (diceRun.contextOf diceRun.symbolTable unit)
          (diceRun.findingsOn unit) rolled) ∧
      ∃ unit ∈ diceRun.units, hidden = diceRun.resultOf diceRun.symbolTable unit ∧
        Codemod.Aim.generator.Certain (diceRun.contextOf diceRun.symbolTable unit)
          (diceRun.findingsOn unit) hidden := by
  have hrolled : ∃ rolled ∈ (diceRun.transform .never).results,
      rolled.changes.map Change.replacement = ["java.security.SecureRandom"] := by
    decide +kernel
  have hhidden : ∃ hidden ∈ (diceRun.transform .never).results,
      hidden.changes = [] ∧ hidden.skipped.map Skip.reason = [.resolutionGap] := by
    decide +kernel
  have hgenerator : Codemod.Aim.generator ∈ Codemod.aims := List.mem_cons_self
  obtain ⟨rolled, hr, hreplaced⟩ := hrolled
  obtain ⟨hidden, hh, hunchanged, hskipped⟩ := hhidden
  obtain ⟨u, hu, hru, hrcertain⟩ :=
    certain_of_mem_results Readers.regular_standard dice [] [0, 1, 2, 3] ⟨[], []⟩ .never rolled hr
  obtain ⟨v, hv, hhv, hhcertain⟩ :=
    certain_of_mem_results Readers.regular_standard dice [] [0, 1, 2, 3] ⟨[], []⟩ .never hidden hh
  exact ⟨rolled, hr, hidden, hh, hreplaced, hunchanged, hskipped,
    ⟨u, hu, hru, hrcertain _ hgenerator⟩, v, hv, hhv, hhcertain _ hgenerator⟩

end Workload

end Remedy
