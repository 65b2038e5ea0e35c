import Mathlib.Data.List.Perm.Basic
import Remedy.Change.Plan
import Remedy.Proofs.Text.Overlap
/-!
# Bids become candidates

Candidates stand in strict order of their codemods and spans, so each pair
of the two has at most one (`nodup_keys_candidates`). Entering a bid adds
its pair if it is new, and its finding to the candidate of the pair; after
all bids the pairs are those that were bid for (`mem_keys_candidates`), and
a candidate carries the findings of the bids for its pair and no others
(`mem_findings_candidates`).
-/

namespace Remedy

/-- What bids are told apart by: the codemod and the span. -/
def Bid.key (b : Bid) : Nat × Span := (b.codemod, b.site.span)

/-- What candidates are told apart by. -/
def Candidate.key (c : Candidate) : Nat × Span := (c.codemod, c.site.span)

namespace Plan

variable {b : Bid} {c : Candidate} {cs : List Candidate} {bids : List Bid}

/-- A pair of a codemod and a span stands ahead of another one. -/
def Ahead (k l : Nat × Span) : Prop := orderKeys k.1 k.2 l.1 l.2 = .lt

theorem ahead_iff {k l : Nat × Span} : Ahead k l ↔ k.1 < l.1 ∨ k.1 = l.1 ∧
    (k.2.start < l.2.start ∨ k.2.start = l.2.start ∧ k.2.stop < l.2.stop) := by
  rw [Ahead, orderKeys, Ordering.then_eq_lt, Nat.compare_eq_lt, Nat.compare_eq_eq,
    Span.order_eq_lt]

theorem Ahead.trans {k l n : Nat × Span} (h : Ahead k l) (h' : Ahead l n) : Ahead k n := by
  rw [ahead_iff] at h h' ⊢
  omega

theorem Ahead.ne {k l : Nat × Span} (h : Ahead k l) : k ≠ l := by
  rintro rfl
  rw [ahead_iff] at h
  omega

theorem orderKeys_eq_eq {i j : Nat} {s t : Span} :
    orderKeys i s j t = .eq ↔ (i, s) = (j, t) := by
  rw [orderKeys, Ordering.then_eq_eq, Nat.compare_eq_eq, Span.order_eq_eq, Prod.mk.injEq]

/-- What stands behind comes ahead the other way round. -/
theorem ahead_of_orderKeys_gt {i j : Nat} {s t : Span} (h : orderKeys i s j t = .gt) :
    Ahead (j, t) (i, s) := by
  rw [orderKeys, Ordering.then_eq_gt, Nat.compare_eq_gt, Nat.compare_eq_eq, Span.order_eq_gt] at h
  rw [ahead_iff]
  simp only
  omega

/-- Candidates in strict order. -/
def InOrder (cs : List Candidate) : Prop := cs.Pairwise fun a b => Ahead a.key b.key

/-- **Entering a bid adds its pair** and no other. -/
theorem mem_keys_enter {k : Nat × Span} :
    k ∈ (enter b cs).map Candidate.key ↔ k = b.key ∨ k ∈ cs.map Candidate.key := by
  induction cs with
  | nil =>
    rw [enter, List.map_cons, List.map_nil, List.mem_singleton]
    simp [Candidate.key, Bid.key]
  | cons c rest ih =>
    rw [enter]
    split
    case h_1 heq =>
      have hkey : b.key = c.key := orderKeys_eq_eq.1 heq
      simp only [List.map_cons, List.mem_cons, hkey, Candidate.key]
      tauto
    case h_2 =>
      rw [List.map_cons, List.mem_cons]
      rfl
    case h_3 =>
      rw [List.map_cons, List.mem_cons, ih, List.map_cons, List.mem_cons]
      exact or_left_comm

/-- **Entering a bid keeps the order.** -/
theorem InOrder.enter (h : InOrder cs) : InOrder (enter b cs) := by
  induction cs with
  | nil => exact List.pairwise_singleton _ _
  | cons c rest ih =>
    obtain ⟨hfirst, hrest⟩ := List.pairwise_cons.1 h
    rw [Plan.enter]
    split
    case h_1 => exact List.pairwise_cons.2 ⟨hfirst, hrest⟩
    case h_2 hlt =>
      have hahead : Ahead b.key c.key := hlt
      refine List.pairwise_cons.2 ⟨fun a ha => ?_, h⟩
      rcases List.mem_cons.1 ha with rfl | hmem
      · exact hahead
      · exact hahead.trans (hfirst a hmem)
    case h_3 hgt =>
      refine List.pairwise_cons.2 ⟨fun a ha => ?_, ih hrest⟩
      -- the key of what stands in the rest now is that of the bid or an old one
      rcases mem_keys_enter.1 (List.mem_map_of_mem ha) with hkey | hold
      · rw [hkey]
        exact ahead_of_orderKeys_gt hgt
      · obtain ⟨a', ha', hkey⟩ := List.mem_map.1 hold
        rw [← hkey]
        exact hfirst a' ha'

/-- A finding is carried for a pair. -/
def Carried (k : Nat × Span) (id : String) (cs : List Candidate) : Prop :=
  ∃ c ∈ cs, c.key = k ∧ id ∈ c.findings

/-- **Entering a bid adds its finding** for its pair, and no other one for
no other pair. -/
theorem carried_enter {k : Nat × Span} {id : String} :
    Carried k id (enter b cs) ↔ (b.key = k ∧ b.finding = some id) ∨ Carried k id cs := by
  induction cs with
  | nil =>
    simp only [Carried, enter, List.mem_singleton, exists_eq_left, Option.mem_toList,
      List.not_mem_nil, false_and, exists_false, or_false]
    rfl
  | cons a rest ih =>
    simp only [Carried, List.mem_cons, exists_eq_or_imp] at ih ⊢
    rw [enter]
    split
    case h_1 heq =>
      -- the candidate keeps its pair and takes the finding up
      have hkey : b.key = a.key := orderKeys_eq_eq.1 heq
      have hsame : Candidate.key { a with findings := a.findings ++ b.finding.toList } = a.key :=
        rfl
      simp only [List.mem_cons, exists_eq_or_imp, hsame, List.mem_append, Option.mem_toList, hkey]
      rw [and_or_left, or_assoc, or_left_comm]
    case h_2 =>
      have hnew : Candidate.key ⟨b.codemod, b.site, b.finding.toList⟩ = b.key := rfl
      simp only [List.mem_cons, exists_eq_or_imp, hnew, Option.mem_toList]
    case h_3 =>
      simp only [List.mem_cons, exists_eq_or_imp, ih]
      exact or_left_comm

/-! ## All bids -/

/-- What holds of the candidates when some bids were entered. -/
structure Entered (bids : List Bid) (cs : List Candidate) : Prop where
  inOrder : InOrder cs
  keys : ∀ k, k ∈ cs.map Candidate.key ↔ k ∈ bids.map Bid.key
  carried : ∀ k id, Carried k id cs ↔ ∃ b ∈ bids, b.key = k ∧ b.finding = some id

theorem Entered.nil : Entered [] [] where
  inOrder := List.Pairwise.nil
  keys := fun _ => Iff.rfl
  carried := fun _ _ => by simp [Carried]

/-- **One more bid.** -/
theorem Entered.enter (h : Entered bids cs) (b : Bid) :
    Entered (bids ++ [b]) (enter b cs) where
  inOrder := h.inOrder.enter
  keys := by
    intro k
    rw [mem_keys_enter, h.keys, List.map_append, List.mem_append, List.map_singleton,
      List.mem_singleton]
    exact or_comm
  carried := by
    intro k id
    rw [carried_enter, h.carried]
    simp only [List.mem_append, List.mem_singleton, or_and_right, exists_or, exists_eq_left]
    exact or_comm

theorem Entered.foldl (h : Entered bids cs) (more : List Bid) :
    Entered (bids ++ more) (more.foldl (fun done bid => Plan.enter bid done) cs) := by
  induction more generalizing bids cs with
  | nil =>
    rw [List.append_nil]
    exact h
  | cons b more ih =>
    have hrest := ih (h.enter b)
    rw [List.append_assoc] at hrest
    exact hrest

/-- **The candidates of bids** stand in order, for the pairs that were bid
for, with the findings that were named. -/
theorem entered_candidates (bids : List Bid) : Entered bids (candidates bids) :=
  Entered.nil.foldl bids

/-- Candidates in order are told apart by their pairs. -/
theorem InOrder.eq_of_key_eq (h : InOrder cs) {a c : Candidate} (ha : a ∈ cs) (hc : c ∈ cs)
    (hkey : a.key = c.key) : a = c := by
  induction cs with
  | nil => cases ha
  | cons d rest ih =>
    obtain ⟨hfirst, hrest⟩ := List.pairwise_cons.1 h
    rcases List.mem_cons.1 ha with rfl | ha' <;> rcases List.mem_cons.1 hc with rfl | hc'
    · rfl
    · exact absurd hkey (hfirst c hc').ne
    · exact absurd hkey.symm (hfirst a ha').ne
    · exact ih hrest ha' hc'

/-- Each pair has one candidate at most. -/
theorem nodup_keys_candidates (bids : List Bid) :
    ((candidates bids).map Candidate.key).Nodup := by
  refine List.pairwise_map.2 ?_
  exact (entered_candidates bids).inOrder.imp fun hahead => hahead.ne

/-- Pairs are bid for when they have a candidate. -/
theorem mem_keys_candidates {k : Nat × Span} :
    k ∈ (candidates bids).map Candidate.key ↔ k ∈ bids.map Bid.key :=
  (entered_candidates bids).keys k

/-- **A candidate carries the findings of the bids for its pair** and no
other. -/
theorem mem_findings_candidates (hc : c ∈ candidates bids) {id : String} :
    id ∈ c.findings ↔ ∃ b ∈ bids, b.key = c.key ∧ b.finding = some id := by
  have h := entered_candidates bids
  rw [← h.carried]
  constructor
  · intro hid
    exact ⟨c, hc, rfl, hid⟩
  · rintro ⟨other, hother, hkey, hid⟩
    rwa [h.inOrder.eq_of_key_eq hother hc hkey] at hid

end Plan

end Remedy
