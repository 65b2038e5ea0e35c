import Mathlib
import Remedy.Codemod.HttpMethods
import Remedy.Proofs.Change.Replay
import Remedy.Proofs.Change.Sites
import Remedy.Proofs.Text.Positions
/-!
# Lines that are out of scope

A match may run over several lines, and the filter is asked for one of them,
the line that its site starts on. A pattern that keeps another line of the
match out is not heard: filters that answer alike on the first lines lead to
the same result (`FileResult.ofFindings_withFilter`). So what is known of a
change that reaches a line out of scope is that it was made for a match that
starts on an earlier line, in scope; and if all sites stay on the line that
they start on, lines out of scope are left as they are
(`FileResult.keepsOut_ofFindings`).
-/

namespace Remedy

/-- The number of the line that a byte is on, counted from one. -/
def SourceUnit.lineAt (unit : SourceUnit) (offset : Nat) : Nat := (unit.position offset).line + 1

theorem SourceUnit.lineAt_mono {unit : SourceUnit} {o o' : Nat} (h : o ≤ o') :
    unit.lineAt o ≤ unit.lineAt o' := by
  have hle := LineIndex.positionFrom_mono 0 h unit.lines.lines
  rw [Position.isLE_order_iff] at hle
  exact Nat.succ_le_succ (hle.elim Nat.le_of_lt fun hsame => hsame.1.le)

/-- **A span covers a byte of a line.** -/
def Span.Reaches (unit : SourceUnit) (s : Span) (n : Nat) : Prop :=
  ∃ b, s.start ≤ b ∧ b < s.stop ∧ unit.lineAt b = n

/-- A span stays on the line that it starts on. -/
def Span.OnOneLine (unit : SourceUnit) (s : Span) : Prop :=
  ∀ n, s.Reaches unit n → n = unit.lineAt s.start

/-- The line of a path is in scope. -/
def PlanContext.InScope (ctx : PlanContext) (n : Nat) : Prop :=
  ctx.filter.allowsLine ctx.unit.path n

/-- The same file under another filter. -/
def PlanContext.withFilter (ctx : PlanContext) (filter : PathFilter) : PlanContext :=
  { ctx with filter := filter }

namespace Plan

variable {ctx : PlanContext} {findings : List Finding} {c : Candidate} {m : Match}
variable {filter : PathFilter}

/-! ### One line of each match -/

/-- A filter is asked for the first line of a candidate, -/
theorem sift_withFilter (h : filter.allowsLine ctx.unit.path (ctx.unit.lineAt c.site.span.start) =
    ctx.filter.allowsLine ctx.unit.path (ctx.unit.lineAt c.site.span.start)) :
    sift (ctx.withFilter filter) c = sift ctx c := by
  have hunit : (ctx.withFilter filter).unit = ctx.unit := rfl
  have hanswer : (ctx.withFilter filter).filter.allowsLine ctx.unit.path
      ((ctx.unit.position c.site.span.start).line + 1) =
      ctx.filter.allowsLine ctx.unit.path ((ctx.unit.position c.site.span.start).line + 1) := h
  rw [sift, sift, hunit, hanswer]
  rfl

/-- and for nothing else. -/
theorem ofFindings_withFilter (h : ∀ c ∈ candidates (bids ctx findings),
    filter.allowsLine ctx.unit.path (ctx.unit.lineAt c.site.span.start) =
      ctx.filter.allowsLine ctx.unit.path (ctx.unit.lineAt c.site.span.start)) :
    ofFindings (ctx.withFilter filter) findings = ofFindings ctx findings :=
  ofFindings_congr rfl (fun _ => rfl) rfl fun c hc => sift_withFilter (h c hc)

/-- **An accepted match starts on a line in scope.** -/
theorem inScope_of_mem_accepted (hm : m ∈ (ofFindings ctx findings).accepted) :
    ctx.InScope (ctx.unit.lineAt m.site.span.start) := by
  obtain ⟨-, -, hfound, -⟩ := exists_contest ctx findings
  obtain ⟨c, -, hpasses, rfl⟩ := mem_found.1 (hfound hm)
  exact hpasses.allowed

/-- **A candidate that starts on a line out of scope is skipped** as excluded. -/
theorem mem_skipped_of_not_inScope (hc : c ∈ candidates (bids ctx findings))
    (hnot : ¬ ctx.InScope (ctx.unit.lineAt c.site.span.start)) :
    Skip.ofMatch (toMatch ctx c) ctx.unit .excluded none ∈ (ofFindings ctx findings).skipped := by
  have hrefused : (!ctx.filter.allowsLine ctx.unit.path
      ((ctx.unit.position c.site.span.start).line + 1)) = true := by
    rw [Bool.not_eq_true']
    exact Bool.eq_false_iff.2 hnot
  have hsift : sift ctx c = .error (Skip.ofMatch (toMatch ctx c) ctx.unit .excluded none) := by
    rw [sift]
    exact if_pos hrefused
  have haway : Skip.ofMatch (toMatch ctx c) ctx.unit .excluded none ∈ turnedAway ctx findings :=
    List.mem_filterMap.2 ⟨sift ctx c, List.mem_map_of_mem hc, by rw [hsift]⟩
  refine (FileResult.perm_skipped_plan ctx findings).mem_iff.2 (List.mem_append_left _ ?_)
  exact List.mem_append_right _ haway

end Plan

namespace FileResult

variable {ctx : PlanContext} {findings : List Finding} {change : Change} {filter : PathFilter}
variable {n : Nat}

/-- **Filters that answer alike on first lines** lead to the same result. -/
theorem ofFindings_withFilter (h : ∀ c ∈ Plan.candidates (Plan.bids ctx findings),
    filter.allowsLine ctx.unit.path (ctx.unit.lineAt c.site.span.start) =
      ctx.filter.allowsLine ctx.unit.path (ctx.unit.lineAt c.site.span.start)) :
    ofFindings (ctx.withFilter filter) findings = ofFindings ctx findings := by
  have hplan := Plan.ofFindings_withFilter h
  have hexecuted : executed (ctx.withFilter filter) findings = executed ctx findings := by
    rw [executed, executed, hplan]
    rfl
  have hparsed : ofParsed .byScript (ctx.withFilter filter) findings =
      ofParsed .byScript ctx findings := by
    rw [ofParsed, ofParsed, newText, newText, hexecuted, hplan]
    rfl
  rw [ofFindings, ofFindings, ofFindingsBy, ofFindingsBy, hparsed]
  rfl

/-- **A change that reaches a line out of scope** was made for a match that
starts on an earlier line, in scope. -/
theorem exists_earlier (hchange : change ∈ (ofFindings ctx findings).changes)
    (hreaches : change.span.Reaches ctx.unit n) (hnot : ¬ ctx.InScope n) :
    ∃ m ∈ (Plan.ofFindings ctx findings).accepted, change.MadeFor ctx.unit m ∧
      ctx.InScope (ctx.unit.lineAt m.site.span.start) ∧ m.site.span.Reaches ctx.unit n ∧
        ctx.unit.lineAt m.site.span.start < n := by
  rw [ofFindings, ofFindingsBy_of_parsed _ (parsed_of_mem_changes hchange)] at hchange
  obtain ⟨m, hm, hmade⟩ := madeFor_executed hchange
  obtain ⟨hstart, hstop⟩ := Span.contains_iff.1 (Execution.fits_iff.1 hmade.fits).1
  have hscope := Plan.inScope_of_mem_accepted hm
  obtain ⟨b, hfrom, hto, rfl⟩ := hreaches
  refine ⟨m, hm, hmade, hscope, ⟨b, hstart.trans hfrom, hto.trans_le hstop, rfl⟩, ?_⟩
  -- the byte is behind the start of the site, and on a line that is not the one asked for
  refine lt_of_le_of_ne (SourceUnit.lineAt_mono (hstart.trans hfrom)) fun hsame => hnot ?_
  rw [← hsame]
  exact hscope

/-- **How a filter keeps lines out of a file**: by the first lines of matches. -/
structure KeepsOut (ctx : PlanContext) (findings : List Finding) : Prop where
  /-- the first lines of candidates are all that the filter is asked for -/
  asked : ∀ filter : PathFilter, (∀ c ∈ Plan.candidates (Plan.bids ctx findings),
      filter.allowsLine ctx.unit.path (ctx.unit.lineAt c.site.span.start) =
        ctx.filter.allowsLine ctx.unit.path (ctx.unit.lineAt c.site.span.start)) →
    ofFindings (ctx.withFilter filter) findings = ofFindings ctx findings
  /-- a match is not made if its first line is out of scope, and this is recorded -/
  skipped : ∀ c ∈ Plan.candidates (Plan.bids ctx findings),
    ¬ ctx.InScope (ctx.unit.lineAt c.site.span.start) →
      Plan.toMatch ctx c ∉ (Plan.ofFindings ctx findings).accepted ∧
        Skip.ofMatch (Plan.toMatch ctx c) ctx.unit .excluded none ∈
          (Plan.ofFindings ctx findings).skipped
  /-- later lines of a match are reached, in scope or not -/
  reached : ∀ change ∈ (ofFindings ctx findings).changes, ∀ n, change.span.Reaches ctx.unit n →
    ¬ ctx.InScope n → ∃ m ∈ (Plan.ofFindings ctx findings).accepted, change.MadeFor ctx.unit m ∧
      ctx.InScope (ctx.unit.lineAt m.site.span.start) ∧ m.site.span.Reaches ctx.unit n ∧
        ctx.unit.lineAt m.site.span.start < n
  /-- without such matches a line out of scope is left as it is -/
  spared : (∀ m ∈ (Plan.ofFindings ctx findings).accepted, m.site.span.OnOneLine ctx.unit) →
    ∀ change ∈ (ofFindings ctx findings).changes, ∀ n, ¬ ctx.InScope n →
      ¬ change.span.Reaches ctx.unit n

/-- **A filter keeps lines out by the first lines of matches**, whatever codemods
there are. -/
theorem keepsOut_ofFindings (ctx : PlanContext) (findings : List Finding) :
    KeepsOut ctx findings where
  asked := fun _ => ofFindings_withFilter
  skipped := by
    intro c hc hnot
    refine ⟨?_, Plan.mem_skipped_of_not_inScope hc hnot⟩
    intro haccepted
    have hscope := Plan.inScope_of_mem_accepted haccepted
    rw [Plan.toMatch] at hscope
    exact hnot hscope
  reached := fun _ hchange _ hreaches hnot => exists_earlier hchange hreaches hnot
  spared := by
    intro hone change hchange n hnot hreaches
    obtain ⟨m, hm, -, -, hreached, hlt⟩ := exists_earlier hchange hreaches hnot
    exact absurd (hone m hm n hreached) hlt.ne'

/-- A web descriptor with an element on two lines, of which the second one is out
of scope. -/
def twoLineElement : PlanContext where
  unit := ⟨⟨"web.xml"⟩, .xml, .utf8, "<http-method>GET\n</http-method>", .plain⟩
  symbols := .build []
  catalog := [Codemod.allMethods]
  active := [0]
  filter := ⟨[], [⟨⟨"web.xml".toList.map .literal⟩, "web.xml", some 2⟩]⟩

/-- The closing tag is removed with the opening one, though its line is out of
scope. -/
theorem not_spared_closingTag :
    PathFilter.ofPatterns [] ["web.xml:2"] = .ok twoLineElement.filter ∧
      twoLineElement.unit.parseError? = none ∧
      twoLineElement.filter.allowsFile twoLineElement.unit.path ∧
      ¬ twoLineElement.InScope 2 ∧
      ¬ ∀ change ∈ (ofFindings twoLineElement []).changes, ∀ n, ¬ twoLineElement.InScope n →
        ¬ change.span.Reaches twoLineElement.unit n := by
  have hnot : ¬ twoLineElement.InScope 2 := by
    rw [PlanContext.InScope, Bool.not_eq_true]
    cbv
  have hspans : (ofFindings twoLineElement []).changes.map Change.span = [⟨0, 31⟩] := by
    decide +kernel
  have hreaches : Span.Reaches twoLineElement.unit ⟨0, 31⟩ 2 :=
    ⟨17, by decide, by decide, by cbv⟩
  refine ⟨rfl, rfl, by decide +kernel, hnot, fun hspared => ?_⟩
  obtain ⟨change, hchange, hspan⟩ := List.mem_map.1 (hspans ▸ List.mem_singleton_self _)
  refine hspared change hchange 2 hnot ?_
  rw [hspan]
  exact hreaches

end FileResult

end Remedy
