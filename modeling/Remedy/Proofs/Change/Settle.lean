import Mathlib.Data.List.Perm.Basic
import Remedy.Proofs.Change.Rank
/-!
# Holding ground

Matches are taken up one after the other unless they overlap one that was
taken up before. One step keeps the matches that hold their ground free of
overlaps, and sends the match at hand either among them or among the losers,
with the match it lost against (`Settling.accept`). So after all steps every
match is in one of the two places, once, and since matches are taken up by
rank, none loses against one that it outranks (`settle_ranked`).
-/

namespace Remedy

namespace Plan

/-- A match that lost, and the one that it lost against. -/
structure Defeat where
  loser : Match
  winner : Match
deriving DecidableEq, Repr

/-- The skip that a defeat is recorded as. -/
def Defeat.skip (unit : SourceUnit) (d : Defeat) : Skip :=
  Skip.ofMatch d.loser unit .conflict (some s!"overlaps change from {d.winner.codemodId}")

/-- **What holds while matches are taken up**: those that were seen stand
among the accepted or the defeated, the accepted do not overlap, and each
defeat is against an accepted match that came first. -/
structure Settling (unit : SourceUnit) (seen : List Match) (done : List Match × List Skip)
    (defeats : List Defeat) : Prop where
  perm : (done.1 ++ defeats.map Defeat.loser).Perm seen
  pairwise : done.1.Pairwise fun a b => ¬ a.site.span.overlaps b.site.span
  skips : done.2 = defeats.map (Defeat.skip unit)
  winners : ∀ d ∈ defeats, d.winner ∈ done.1 ∧ d.winner.site.span.overlaps d.loser.site.span

variable {unit : SourceUnit} {seen ms : List Match} {done : List Match × List Skip}
variable {defeats : List Defeat}

theorem Settling.nil : Settling unit [] ([], []) [] where
  perm := List.Perm.refl _
  pairwise := List.Pairwise.nil
  skips := rfl
  winners := fun _ hd => absurd hd List.not_mem_nil

/-- **One step**: the match at hand holds its ground or is defeated by one
that was seen before it. -/
theorem Settling.accept (h : Settling unit seen done defeats) (m : Match) :
    ∃ defeats', Settling unit (seen ++ [m]) (accept unit done m) defeats' ∧
      ∀ d ∈ defeats', d ∈ defeats ∨ d.winner ∈ seen ∧ d.loser = m := by
  rw [Plan.accept]
  split
  case h_1 winner hfind =>
    have hwinner : winner ∈ done.1 := List.mem_of_find?_eq_some hfind
    -- the match at hand joins the defeated, the accepted stay
    refine ⟨defeats ++ [⟨m, winner⟩], ⟨?_, h.pairwise, ?_, ?_⟩, ?_⟩
    · rw [List.map_append, ← List.append_assoc]
      exact h.perm.append_right [m]
    · rw [h.skips, List.map_append]
      rfl
    · intro d hd
      rcases List.mem_append.1 hd with hold | hnew
      · exact h.winners d hold
      · rw [List.mem_singleton.1 hnew]
        exact ⟨hwinner, by simpa using List.find?_some hfind⟩
    · intro d hd
      rcases List.mem_append.1 hd with hold | hnew
      · exact Or.inl hold
      · rw [List.mem_singleton.1 hnew]
        exact Or.inr ⟨h.perm.subset (List.mem_append_left _ hwinner), rfl⟩
  case h_2 hfind =>
    -- nothing that was accepted overlaps the match at hand, so it joins them
    refine ⟨defeats, ⟨?_, ?_, h.skips, ?_⟩, fun d hd => Or.inl hd⟩
    · have hmoved : (done.1 ++ [m] ++ defeats.map Defeat.loser).Perm
          (done.1 ++ defeats.map Defeat.loser ++ [m]) := by
        rw [List.append_assoc, List.append_assoc]
        exact (List.perm_append_comm).append_left done.1
      exact hmoved.trans (h.perm.append_right [m])
    · refine List.pairwise_append.2 ⟨h.pairwise, List.pairwise_singleton _ m, ?_⟩
      intro a ha b hb
      rw [List.mem_singleton.1 hb]
      exact List.find?_eq_none.1 hfind a ha
    · intro d hd
      exact ⟨List.mem_append_left _ (h.winners d hd).1, (h.winners d hd).2⟩

/-- **A run of steps** over matches in an order: none is defeated by one
behind it. -/
theorem Settling.foldl {R : Match → Match → Prop} (h : Settling unit seen done defeats)
    (hahead : ∀ d ∈ defeats, R d.winner d.loser) (ms : List Match)
    (horder : (seen ++ ms).Pairwise R) :
    ∃ defeats', Settling unit (seen ++ ms) (ms.foldl (Plan.accept unit) done) defeats' ∧
      ∀ d ∈ defeats', R d.winner d.loser := by
  induction ms generalizing seen done defeats with
  | nil => exact ⟨defeats, by rw [List.append_nil]; exact h, hahead⟩
  | cons m ms ih =>
    obtain ⟨defeats₁, h₁, hstep⟩ := h.accept m
    have hahead₁ : ∀ d ∈ defeats₁, R d.winner d.loser := by
      intro d hd
      rcases hstep d hd with hold | ⟨hwinner, hloser⟩
      · exact hahead d hold
      · rw [hloser]
        exact (List.pairwise_append.1 horder).2.2 _ hwinner m List.mem_cons_self
    rw [List.append_cons] at horder ⊢
    exact ih h₁ hahead₁ horder

/-- **Every match holds its ground or is defeated, once**, by one that it
does not outrank; and those that hold it do not overlap. -/
theorem settle_ranked (unit : SourceUnit) (found : List Match) :
    ∃ defeats, Settling unit found (settle unit found) defeats ∧
      ∀ d ∈ defeats, ¬ d.loser.Outranks d.winner := by
  have hsorted : (found.mergeSort fun a b => (orderByRank a b).isLE).Pairwise
      fun a b => (orderByRank a b).isLE :=
    List.pairwise_mergeSort (fun a b c => @Match.isLE_orderByRank_trans a b c)
      Match.isLE_orderByRank_total found
  have horder : (found.mergeSort fun a b => (orderByRank a b).isLE).Pairwise
      fun a b => ¬ b.Outranks a := hsorted.imp Match.isLE_orderByRank.1
  obtain ⟨defeats, h, hranked⟩ := (@Settling.nil unit).foldl
    (fun _ hd => absurd hd List.not_mem_nil) _ horder
  refine ⟨defeats, ⟨?_, h.pairwise, h.skips, h.winners⟩, hranked⟩
  exact h.perm.trans (List.mergeSort_perm _ _)

/-- The same without the ranks. -/
theorem settle_spec (unit : SourceUnit) (found : List Match) :
    ∃ defeats, Settling unit found (settle unit found) defeats := by
  obtain ⟨defeats, h, -⟩ := settle_ranked unit found
  exact ⟨defeats, h⟩

end Plan

end Remedy
