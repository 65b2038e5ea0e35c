import Mathlib
import Remedy.Proofs.Change.Choice
import Remedy.Proofs.Change.Replay
import Remedy.Proofs.Change.Trace
import Remedy.Proofs.Codemod.Elements
import Remedy.Proofs.Text.Without
/-!
# The elements are removed

Where the codemod for web descriptors is alone and no pattern keeps a line out,
all elements of a file compete and no two of them overlap, so all are accepted
(`Plan.exists_accepted_iff`), and each one becomes a change to nothing. The new
text is what is left of the old one between the elements
(`FileResult.newText_eq_without`).
-/

namespace Remedy

open Codemod (allMethods)

/-- **No other codemod is active** in a run. -/
structure PlanContext.OnlyActive (ctx : PlanContext) (i : Nat) (c : Codemod) : Prop where
  active : ctx.active = [i]
  listed : ctx.catalog[i]? = some c

/-- **A codemod is alone in a file** that it applies to: no other one is active,
and no pattern keeps a line of the file out. -/
structure PlanContext.OnlyUnder (ctx : PlanContext) (i : Nat) (c : Codemod) : Prop
    extends ctx.OnlyActive i c where
  applies : c.appliesTo ctx.unit
  parsed : ctx.unit.parseError? = none
  unfiltered : ∀ n, ctx.filter.allowsLine ctx.unit.path n

theorem LineEnding.apply_empty (style : LineEnding) : style.apply "" = "" := by
  cases style <;> decide

namespace Plan

variable {ctx : PlanContext} {findings : List Finding} {i j : Nat} {c d : Codemod} {m : Match}
variable {s : Span}

/-! ### All elements are accepted -/

theorem takesPart_iff (honly : ctx.OnlyActive i c) :
    TakesPart ctx j d ↔ j = i ∧ d = c ∧ c.appliesTo ctx.unit := by
  constructor
  · rintro ⟨hlisted, hactive, happlies⟩
    rw [honly.active, List.mem_singleton] at hactive
    subst hactive
    obtain rfl : d = c := Option.some.inj (hlisted.symm.trans honly.listed)
    exact ⟨rfl, rfl, happlies⟩
  · rintro ⟨rfl, rfl, happlies⟩
    exact ⟨honly.listed, by rw [honly.active]; exact List.mem_singleton_self j, happlies⟩

/-- What the codemod locates are elements, in a region and in the whole file. -/
theorem mem_locate {site : Site} {region : Option Span} :
    site ∈ allMethods.locate (view ctx) region ↔
      site.span ∈ HttpMethod.spans ctx.unit.text ∧ region.all site.span.touches ∧
        site.needs = [] := by
  obtain ⟨span, needs⟩ := site
  have hlocate : allMethods.locate (view ctx) region =
      ((HttpMethod.spans ctx.unit.text).filter fun s => region.all s.touches).map (⟨·, []⟩) := rfl
  rw [hlocate, List.mem_map]
  simp only [List.mem_filter, Site.mk.injEq]
  constructor
  · rintro ⟨s, ⟨hs, htouches⟩, rfl, rfl⟩
    exact ⟨hs, htouches, rfl⟩
  · rintro ⟨hs, htouches, rfl⟩
    exact ⟨span, ⟨hs, htouches⟩, rfl, rfl⟩

/-- Findings add nothing to what the scan locates. -/
theorem located_iff_mem_spans (honly : ctx.OnlyUnder i allMethods) :
    Located ctx findings j s ↔ j = i ∧ s ∈ HttpMethod.spans ctx.unit.text := by
  constructor
  · rintro (⟨f, -, region, c, -, hclaims, site, hsite, rfl⟩ | ⟨c, htakes, -, site, hsite, rfl⟩)
    · obtain ⟨rfl, rfl, -⟩ := (takesPart_iff honly.toOnlyActive).1 hclaims.takesPart
      exact ⟨rfl, (mem_locate.1 hsite).1⟩
    · obtain ⟨rfl, rfl, -⟩ := (takesPart_iff honly.toOnlyActive).1 htakes
      exact ⟨rfl, (mem_locate.1 hsite).1⟩
  · rintro ⟨rfl, hs⟩
    exact .inr ⟨allMethods, (takesPart_iff honly.toOnlyActive).2 ⟨rfl, rfl, honly.applies⟩, rfl,
      ⟨s, []⟩, mem_locate.2 ⟨hs, rfl, rfl⟩, rfl⟩

/-- The matches that compete are for elements, and none outranks another one by
its priority. -/
theorem of_mem_competing (honly : ctx.OnlyUnder i allMethods) (hm : m ∈ competing ctx findings) :
    m.codemod = i ∧ m.priority = allMethods.priority ∧
      m.site.span ∈ HttpMethod.spans ctx.unit.text := by
  obtain ⟨hcodemod, hspan⟩ := (located_iff_mem_spans honly).1 (located_of_mem_competing hm)
  refine ⟨hcodemod, ?_, hspan⟩
  obtain ⟨a, -, -, rfl⟩ := hm
  have hlisted : ctx.catalog[a.codemod]? = some allMethods :=
    (congrArg (ctx.catalog[·]?) hcodemod).trans honly.listed
  rw [toMatch, hlisted]
  rfl

theorem exists_competing (honly : ctx.OnlyUnder i allMethods)
    (hs : s ∈ HttpMethod.spans ctx.unit.text) : ∃ m ∈ competing ctx findings, m.site.span = s := by
  have hlocated : Located ctx findings i s := (located_iff_mem_spans honly).2 ⟨rfl, hs⟩
  obtain ⟨a, ha, hkey⟩ := List.mem_map.1 (mem_keys_candidates.2 (mem_keys_bids.2 hlocated))
  obtain ⟨hcodemod, rfl⟩ := Prod.mk.inj hkey
  refine ⟨toMatch ctx a, ⟨a, ha, ⟨honly.unfiltered _, ?_⟩, rfl⟩, rfl⟩
  intro codemod hlisted hneeds
  rw [hcodemod, honly.listed, Option.some.injEq] at hlisted
  rw [← hlisted] at hneeds
  cases hneeds

/-- **All elements are accepted**, and nothing else. -/
theorem exists_accepted_iff (honly : ctx.OnlyUnder i allMethods) :
    (∃ m ∈ (ofFindings ctx findings).accepted, m.site.span = s) ↔
      s ∈ HttpMethod.spans ctx.unit.text := by
  constructor
  · rintro ⟨m, hm, rfl⟩
    exact (of_mem_competing honly ((rankedChoice_accepted ctx findings).among hm)).2.2
  · intro hs
    obtain ⟨m, hm, rfl⟩ : ∃ m ∈ competing ctx findings, m.site.span = s :=
      exists_competing honly hs
    refine ⟨m, mem_accepted_of_apart hm fun a ha hrank => ?_, rfl⟩
    obtain ⟨hcodemod, hpriority, hspan⟩ := of_mem_competing honly ha
    obtain ⟨hcodemod', hpriority', -⟩ := of_mem_competing honly hm
    refine HttpMethod.not_overlaps hspan hs fun heq => ?_
    -- two matches of one codemod for one span have one rank
    rw [Match.Outranks, Match.StandsBefore, hpriority, hpriority', hcodemod, hcodemod',
      heq] at hrank
    omega

end Plan

namespace FileResult

open HttpMethod (spans)

variable {differ : Differ} {ctx : PlanContext} {findings : List Finding} {i : Nat} {m : Match}
variable {change : Change} {c : Codemod}

/-! ### What becomes of them -/

/-- **An accepted match becomes a change** of its element to nothing. -/
theorem exists_change (honly : ctx.OnlyUnder i allMethods)
    (hm : m ∈ (Plan.ofFindings ctx findings).accepted) : ∃ change,
      Execution.ofMatch? (Plan.view ctx) ctx.catalog m = some (.changed change) ∧
        change.edit = (m.site.span, "") := by
  obtain ⟨hcodemod, -, hspan⟩ :=
    Plan.of_mem_competing honly ((Plan.rankedChoice_accepted ctx findings).among hm)
  obtain ⟨piece, hslice, hpiece⟩ := HttpMethod.mem_spans.1 hspan
  have happly : allMethods.apply (Plan.view ctx) m.site =
      .ok ⟨m.site.span, "", some s!"Removed {Text.trim piece}"⟩ := by
    have hunit : (Plan.view ctx).unit.slice? m.site.span = some piece := hslice
    simp only [allMethods, hunit]
  have hdiffers : piece ≠ ctx.unit.lineEnding.apply "" := by
    rw [LineEnding.apply_empty]
    rintro rfl
    exact hpiece.ne_nil rfl
  obtain ⟨change, hchanged⟩ := @Execution.exists_changed ctx.unit m
    ⟨m.site.span, "", some s!"Removed {Text.trim piece}"⟩ piece hslice
    (Span.contains_iff.2 ⟨le_rfl, le_rfl⟩) hdiffers
  obtain ⟨hspan, hreplacement⟩ := Execution.eq_of_ofReplacement hchanged
  refine ⟨change, ?_, Prod.ext hspan (hreplacement.trans (LineEnding.apply_empty _))⟩
  rw [Execution.ofMatch?, hcodemod, honly.listed, Option.map_some, happly]
  exact congrArg some hchanged

/-- Each change is one of an element to nothing. -/
theorem of_mem_executed (honly : ctx.OnlyUnder i allMethods)
    (hchange : change ∈ (executed ctx findings).changes) :
    change.span ∈ spans ctx.unit.text ∧ change.replacement = "" := by
  obtain ⟨m, hm, houtcome⟩ := Execution.mem_changes.1 hchange
  obtain ⟨other, hother, hedit⟩ := exists_change honly hm
  obtain rfl : change = other := by
    rw [houtcome, Option.some.injEq, Outcome.changed.injEq] at hother
    exact hother
  obtain ⟨hspan, hreplacement⟩ := Prod.mk.inj hedit
  exact ⟨hspan ▸ (Plan.exists_accepted_iff honly).1 ⟨m, hm, rfl⟩, hreplacement⟩

/-- **The changes are those of the elements**, in their order. -/
theorem map_span_executed (honly : ctx.OnlyUnder i allMethods) :
    (executed ctx findings).changes.map Change.span = spans ctx.unit.text := by
  have hmem : ∀ s, s ∈ (executed ctx findings).changes.map Change.span ↔
      s ∈ spans ctx.unit.text := by
    intro s
    constructor
    · rintro hs
      obtain ⟨change, hchange, rfl⟩ := List.mem_map.1 hs
      exact (of_mem_executed honly hchange).1
    · intro hs
      obtain ⟨m, hm, rfl⟩ : ∃ m ∈ (Plan.ofFindings ctx findings).accepted, m.site.span = s :=
        (Plan.exists_accepted_iff honly).2 hs
      obtain ⟨change, houtcome, hedit⟩ := exists_change honly hm
      exact List.mem_map.2 ⟨change, Execution.mem_changes.2 ⟨m, hm, houtcome⟩,
        (Prod.mk.inj hedit).1⟩
  have hordered : ∀ {ss : List Span}, (∀ s, s ∈ ss ↔ s ∈ spans ctx.unit.text) →
      ss.Pairwise (fun s t => s.stop ≤ t.start) →
      ss.Pairwise fun s t => s.start < t.start := by
    intro ss hss hpairwise
    refine hpairwise.imp_of_mem fun {s t} hs _ hle => ?_
    exact (HttpMethod.start_of_mem_spansFrom ((hss s).1 hs)).2.trans_le hle
  exact eq_of_pairwise_of_mem_iff (fun s t hst hts => absurd hts hst.not_gt)
    (hordered hmem (List.pairwise_map.2 (ordered_executed ctx findings)))
    (hordered (fun _ => Iff.rfl) (HttpMethod.pairwise_spansFrom 0 ctx.unit.text.toList)) hmem

theorem map_edit_executed (honly : ctx.OnlyUnder i allMethods) :
    (executed ctx findings).changes.map Change.edit =
      (spans ctx.unit.text).map fun s => (s, "") := by
  rw [← map_span_executed honly, List.map_map]
  refine List.map_congr_left fun change hchange => ?_
  exact Prod.ext rfl (of_mem_executed honly hchange).2

/-- No change fails. -/
theorem errors_executed (honly : ctx.OnlyUnder i allMethods) :
    (executed ctx findings).errors = [] := by
  refine List.eq_nil_iff_forall_not_mem.2 fun error herror => ?_
  obtain ⟨m, hm, houtcome⟩ := Execution.mem_errors.1 herror
  obtain ⟨change, hchanged, -⟩ := exists_change honly hm
  rw [houtcome] at hchanged
  cases hchanged

/-- **The new text is the old one without its elements.** -/
theorem newText_eq_without (honly : ctx.OnlyUnder i allMethods) :
    newText ctx findings = Text.without ctx.unit.text (spans ctx.unit.text) := by
  obtain ⟨ps, rest, htext, hedits⟩ := exists_pieces_of_executed ctx findings
  have hpieces : Text.Piece.edits 0 ps = (spans ctx.unit.text).map fun s => (s, "") := by
    rw [← hedits, map_edit_executed honly]
  have hnothing : ∀ p ∈ ps, p.new = "" := by
    intro p hp
    have hnew : p.new ∈ (Text.Piece.edits 0 ps).map Prod.snd := by
      rw [Text.Piece.map_snd_edits]
      exact List.mem_map_of_mem hp
    rw [hpieces, List.map_map] at hnew
    obtain ⟨s, -, hempty⟩ := List.mem_map.1 hnew
    exact hempty.symm
  have hspans : (Text.Piece.edits 0 ps).map Prod.fst = spans ctx.unit.text := by
    rw [hpieces, List.map_map]
    exact List.map_id' _
  rw [newText_eq_of_pieces htext hedits, Text.Piece.newText_eq_without hnothing, hspans, ← htext]

/-- Nothing is changed by a codemod alone that does not apply to the file. -/
theorem changes_eq_nil_of_not_appliesTo (honly : ctx.OnlyActive i c)
    (hnot : ¬ c.appliesTo ctx.unit) : (executed ctx findings).changes = [] := by
  refine List.eq_nil_iff_forall_not_mem.2 fun change hchange => ?_
  obtain ⟨m, hm, -⟩ := Execution.mem_changes.1 hchange
  have hcompetes := (Plan.rankedChoice_accepted ctx findings).among hm
  obtain ⟨d, htakes⟩ := (Plan.located_of_mem_competing hcompetes).takesPart
  exact hnot ((Plan.takesPart_iff honly).1 htakes).2.2

theorem newText_eq_of_changes_eq_nil (h : (executed ctx findings).changes = []) :
    newText ctx findings = ctx.unit.text := by
  have htext := Text.sliceFrom?_append "" ctx.unit.text
  rw [String.empty_append] at htext
  rw [newText, Execution.text?, h, List.map_nil, Text.splice?]
  exact (congrArg (·.getD ctx.unit.text) htext).trans (Option.getD_some ..)

end FileResult

/-! ### The codemod -/

namespace Codemod

open HttpMethod (IsElement spans)

/-- **The codemod locates the elements of a text**, from left to right. -/
structure LocatesElements (ctx : CodemodContext) : Prop where
  elements : ∀ s, s ∈ (allMethods.locate ctx none).map Site.span ↔
    ∃ piece, Text.slice? ctx.unit.text s = some piece ∧ IsElement piece.toList
  ordered : ((allMethods.locate ctx none).map Site.span).Pairwise fun s t => s.stop ≤ t.start
  forward : ∀ site ∈ allMethods.locate ctx none, site.span.start < site.span.stop
  touching : ∀ region, allMethods.locate ctx (some region) =
    (allMethods.locate ctx none).filter fun site => site.span.touches region

/-- **The elements of a file are removed**, and nothing else happens to it. -/
structure RemovesElements (ctx : PlanContext) (findings : List Finding) : Prop where
  changes : (FileResult.ofFindings ctx findings).changes.map Change.edit =
    (allMethods.locate (Plan.view ctx) none).map fun site => (site.span, "")
  errors : (FileResult.ofFindings ctx findings).errors = []
  newText : FileResult.newText ctx findings =
    Text.without ctx.unit.text ((allMethods.locate (Plan.view ctx) none).map Site.span)
  /-- the result has the new text, if the comparison of the two is sound -/
  transformed : ∀ differ : Differ, differ.Sound ctx.unit.text (FileResult.newText ctx findings) →
    (FileResult.ofFindingsBy differ ctx findings).transformed.getD ctx.unit.text =
      Text.without ctx.unit.text ((allMethods.locate (Plan.view ctx) none).map Site.span)

theorem map_span_locate (ctx : CodemodContext) :
    (allMethods.locate ctx none).map Site.span = spans ctx.unit.text := by
  have hlocate : allMethods.locate ctx none =
      ((spans ctx.unit.text).filter fun _ => true).map (⟨·, []⟩) := rfl
  rw [hlocate, List.filter_true, List.map_map]
  exact List.map_id' _

theorem locatesElements (ctx : CodemodContext) : LocatesElements ctx where
  elements := fun s => by rw [map_span_locate, HttpMethod.mem_spans]
  ordered := by
    rw [map_span_locate]
    exact HttpMethod.pairwise_spansFrom 0 ctx.unit.text.toList
  forward := by
    intro site hsite
    have hspan : site.span ∈ spans ctx.unit.text := by
      rw [← map_span_locate]
      exact List.mem_map_of_mem hsite
    exact (HttpMethod.start_of_mem_spansFrom hspan).2
  touching := by
    intro region
    have hlocate : ∀ region, allMethods.locate ctx region =
        ((spans ctx.unit.text).filter fun s => region.all s.touches).map (⟨·, []⟩) := fun _ => rfl
    rw [hlocate, hlocate, List.filter_map, List.filter_filter]
    simp only [Function.comp_def, Option.all_none, Option.all_some, Bool.and_true]

theorem removesElements {ctx : PlanContext} {i : Nat} (honly : ctx.OnlyUnder i allMethods)
    (findings : List Finding) : RemovesElements ctx findings where
  changes := by
    have hspans : spans ctx.unit.text =
        (allMethods.locate (Plan.view ctx) none).map Site.span :=
      (map_span_locate (Plan.view ctx)).symm
    rw [FileResult.ofFindings, FileResult.ofFindingsBy_of_parsed _ honly.parsed]
    refine (FileResult.map_edit_executed honly).trans ?_
    rw [hspans, List.map_map]
    rfl
  errors := by
    rw [FileResult.ofFindings, FileResult.ofFindingsBy_of_parsed _ honly.parsed]
    exact FileResult.errors_executed honly
  newText := by
    rw [map_span_locate]
    exact FileResult.newText_eq_without honly
  transformed := by
    intro differ hsound
    rw [FileResult.ofFindingsBy_of_parsed _ honly.parsed, FileResult.getD_transformed hsound,
      map_span_locate]
    exact FileResult.newText_eq_without honly

/-- **The codemod for web descriptors is exact.** In every text it locates all
elements that name methods, and of a region those that touch it; where it is
alone, these are removed from a descriptor, and other files stay as they are. -/
theorem locates_and_removes : (∀ ctx, LocatesElements ctx) ∧
    (∀ ctx : PlanContext, ∀ i, ctx.OnlyUnder i allMethods → ∀ findings,
      RemovesElements ctx findings) ∧
    ∀ ctx : PlanContext, ∀ i, ctx.OnlyActive i allMethods → ¬ isWebDescriptor ctx.unit →
      ∀ findings, FileResult.newText ctx findings = ctx.unit.text := by
  refine ⟨locatesElements, fun ctx i honly findings => removesElements honly findings, ?_⟩
  intro ctx i honly hnot findings
  exact FileResult.newText_eq_of_changes_eq_nil
    (FileResult.changes_eq_nil_of_not_appliesTo honly hnot)

/-- A file with an opening tag that breaks off, ahead of an element. -/
def brokenTag (path : Path) : PlanContext where
  unit := ⟨path, .xml, .utf8, "<http-method <http-method>*</http-method>", .plain⟩
  symbols := .build []
  catalog := [allMethods]
  active := [0]
  filter := ⟨[], []⟩

/-- The element behind the broken tag is found, and removed from a descriptor. -/
theorem locates_and_removes_brokenTag :
    (brokenTag ⟨"WEB-INF/web.xml"⟩).OnlyUnder 0 allMethods ∧
    (allMethods.locate (Plan.view (brokenTag ⟨"WEB-INF/web.xml"⟩)) none).map Site.span =
      [⟨13, 41⟩] ∧
    LocatesElements (Plan.view (brokenTag ⟨"WEB-INF/web.xml"⟩)) ∧
    RemovesElements (brokenTag ⟨"WEB-INF/web.xml"⟩) [] ∧
    (FileResult.ofFindings (brokenTag ⟨"WEB-INF/web.xml"⟩) []).transformed.getD
      (brokenTag ⟨"WEB-INF/web.xml"⟩).unit.text = "<http-method " ∧
    FileResult.newText (brokenTag ⟨"pom.xml"⟩) [] = (brokenTag ⟨"pom.xml"⟩).unit.text := by
  have honly : (brokenTag ⟨"WEB-INF/web.xml"⟩).OnlyUnder 0 allMethods :=
    ⟨⟨rfl, rfl⟩, by decide +kernel, rfl, fun _ => rfl⟩
  have hremoves := locates_and_removes.2.1 _ 0 honly []
  have hnew : FileResult.newText (brokenTag ⟨"WEB-INF/web.xml"⟩) [] = "<http-method " := by
    rw [hremoves.newText]
    decide +kernel
  have hsound : Differ.byScript.Sound (brokenTag ⟨"WEB-INF/web.xml"⟩).unit.text
      (FileResult.newText (brokenTag ⟨"WEB-INF/web.xml"⟩) []) := by
    rw [hnew]
    exact ⟨by decide +kernel, by decide +kernel, by decide +kernel⟩
  have hresult := hremoves.transformed .byScript hsound
  rw [← hremoves.newText, hnew] at hresult
  exact ⟨honly, by decide +kernel, locates_and_removes.1 _, hremoves, hresult,
    locates_and_removes.2.2 _ 0 ⟨rfl, rfl⟩ (by decide +kernel) []⟩

end Codemod

end Remedy
