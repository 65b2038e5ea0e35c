import Mathlib
import Remedy.Proofs.Change.Applied
/-!
# Insertions at one place

Two changes of a file overlap in one case only: both are insertions, at the
same offset. Nothing keeps codemods from that. Their sites do not overlap,
but they may meet, and a replacement may shrink to the end of its site; the
check of a replacement looks at its own site alone.
-/

namespace Remedy

namespace FileResult

variable {ctx : PlanContext} {findings : List Finding} {a b : Change}

/-- What holds of each two changes of a file, in their order. -/
structure Neighbours (ctx : PlanContext) (findings : List Finding) (a b : Change) : Prop where
  /-- They overlap when both are insertions at one offset, and only then. -/
  overlaps_iff : a.span.overlaps b.span ↔ Span.SameInsertion a.span b.span
  /-- And then the sites of their matches meet at that offset. -/
  meet : Span.SameInsertion a.span b.span →
    ∃ m ∈ (Plan.ofFindings ctx findings).accepted,
      ∃ n ∈ (Plan.ofFindings ctx findings).accepted,
        a.MadeFor ctx.unit m ∧ b.MadeFor ctx.unit n ∧ ¬ m.site.span.overlaps n.site.span ∧
          Span.MeetAt m.site.span n.site.span a.span.start

theorem neighbours_of_rivals
    (h : Execution.Rivals ctx.unit (Plan.ofFindings ctx findings).accepted a b) :
    Neighbours ctx findings a b where
  overlaps_iff := by
    have hapart := h.apart
    obtain ⟨m, -, n, -, ha, hb, -⟩ := h
    exact Span.overlaps_iff_of_apart (Execution.fits_iff.1 ha.fits).2.1
      (Execution.fits_iff.1 hb.fits).2.1 hapart
  meet := by
    intro hsame
    obtain ⟨m, hm, n, hn, ha, hb, hover⟩ := h
    have hsites := Execution.apart_sites ha hb hover
    refine ⟨m, hm, n, hn, ha, hb, hover, ?_⟩
    exact hsites.meetAt (Execution.fits_iff.1 ha.fits).1 (Execution.fits_iff.1 hb.fits).1 hsame

/-- **Each two changes of a file are neighbours.** -/
theorem pairwise_neighbours (ctx : PlanContext) (findings : List Finding) :
    (ofFindings ctx findings).changes.Pairwise (Neighbours ctx findings) := by
  rw [ofFindings, ofFindingsBy]
  split
  case h_1 error herror => exact List.Pairwise.nil
  case h_2 hparsed =>
    have hrivals := @Execution.pairwise_rivals (Plan.view ctx) ctx.catalog _
      (Plan.pairwise_accepted ctx findings)
    exact hrivals.imp neighbours_of_rivals

/-- **When changes do not overlap.** The changes of a file are free of
overlaps exactly when no two of them are insertions at one offset; and where
two of them are, the sites of their matches meet at that offset. -/
theorem not_overlaps_iff_not_sameInsertion (ctx : PlanContext) (findings : List Finding) :
    ((ofFindings ctx findings).changes.Pairwise (fun a b => ¬ a.span.overlaps b.span) ↔
        (ofFindings ctx findings).changes.Pairwise
          fun a b => ¬ Span.SameInsertion a.span b.span) ∧
      (ofFindings ctx findings).changes.Pairwise (Neighbours ctx findings) := by
  have hneighbours := pairwise_neighbours ctx findings
  refine ⟨⟨?_, ?_⟩, hneighbours⟩
  · intro hover
    refine (hneighbours.and hover).imp ?_
    intro a b ⟨hab, hnot⟩ hsame
    exact hnot (hab.overlaps_iff.2 hsame)
  · intro hsame
    refine (hneighbours.and hsame).imp ?_
    intro a b ⟨hab, hnot⟩ hover
    exact hnot (hab.overlaps_iff.1 hover)

/-- Two sites that meet, with replacements that shrink to where they do. -/
def meetingSites : PlanContext :=
  .ofScripts "ab" [.putting "left" "a" "X" [] 1 0, .putting "right" "b" "Y" [] 0 (-1)]

/-- Both insertions are made, one behind the other at the same offset. -/
theorem overlaps_meetingSites : meetingSites.unit.parseError? = none ∧
    newText meetingSites [] = "aXYb" ∧
    ¬ (ofFindings meetingSites []).changes.Pairwise fun a b => ¬ a.span.overlaps b.span := by
  have hspans : (ofFindings meetingSites []).changes.map Change.span = [⟨1, 1⟩, ⟨1, 1⟩] := by cbv
  refine ⟨rfl, by cbv, ?_⟩
  intro hpairwise
  have hmap : ([⟨1, 1⟩, ⟨1, 1⟩] : List Span).Pairwise fun a b => ¬ a.overlaps b := by
    rw [← hspans]
    exact List.pairwise_map.2 hpairwise
  exact absurd hmap (by decide)

end FileResult

end Remedy
