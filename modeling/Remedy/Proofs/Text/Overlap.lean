import Mathlib.Order.Nat
import Remedy.Text.Span
/-!
# Spans apart and spans in order

Two spans are apart when one ends where the other starts or ahead of it.
Spans that do not overlap are apart (`apart_of_not_overlaps`), and so is
whatever lies within them. The way back fails in one case only: two
insertions at one offset are apart and overlap (`overlaps_iff_of_apart`).
-/

namespace Remedy

namespace Span

variable {s t r q : Span}

/-- One span ends where the other starts, or ahead of it. -/
def Apart (s t : Span) : Prop := s.stop ≤ t.start ∨ t.stop ≤ s.start

/-- Both spans are insertions at one offset. -/
def SameInsertion (s t : Span) : Prop :=
  s.stop = s.start ∧ t.stop = t.start ∧ s.start = t.start

/-- One span ends at an offset and the other one starts there. -/
def MeetAt (s t : Span) (offset : Nat) : Prop :=
  (s.stop = offset ∧ t.start = offset) ∨ (t.stop = offset ∧ s.start = offset)

/-- The cases of an overlap: two insertions, one of them strictly inside a
span with bytes, or two spans that share a byte. -/
theorem overlaps_iff : s.overlaps t ↔
    (s.stop ≤ s.start ∧ t.stop ≤ t.start ∧ s.start = t.start) ∨
      (s.stop ≤ s.start ∧ t.start < s.start ∧ s.start < t.stop) ∨
      (t.stop ≤ t.start ∧ s.start < t.start ∧ t.start < s.stop) ∨
      (s.start < s.stop ∧ t.start < t.stop ∧ s.start < t.stop ∧ t.start < s.stop) := by
  rw [overlaps]
  split <;> rename_i hs ht <;>
    simp only [isEmpty, decide_eq_true_eq, decide_eq_false_iff_not] at hs ht <;>
    simp only [Bool.and_eq_true, decide_eq_true_eq, beq_iff_eq] <;> omega

theorem overlaps_comm : s.overlaps t ↔ t.overlaps s := by
  rw [overlaps_iff, overlaps_iff]
  omega

theorem not_overlaps_symm (h : ¬ s.overlaps t) : ¬ t.overlaps s := fun hts =>
  h (overlaps_comm.1 hts)

/-- **Spans that do not overlap are apart**, if they run forwards. -/
theorem apart_of_not_overlaps (hs : s.start ≤ s.stop) (ht : t.start ≤ t.stop)
    (h : ¬ s.overlaps t) : Apart s t := by
  rw [overlaps_iff] at h
  rw [Apart]
  omega

/-- **Spans that are apart overlap in one case only**: when both are
insertions at one offset. -/
theorem overlaps_iff_of_apart (hs : s.start ≤ s.stop) (ht : t.start ≤ t.stop) (h : Apart s t) :
    s.overlaps t ↔ SameInsertion s t := by
  rw [Apart] at h
  rw [overlaps_iff, SameInsertion]
  omega

theorem Apart.symm (h : Apart s t) : Apart t s := Or.symm h

theorem contains_iff : s.contains t ↔ s.start ≤ t.start ∧ t.stop ≤ s.stop := by
  rw [contains, Bool.and_eq_true, decide_eq_true_eq, decide_eq_true_eq]

theorem contains_trans (h : s.contains t) (h' : t.contains r) : s.contains r := by
  rw [contains_iff] at h h' ⊢
  omega

theorem length_le_of_contains (h : s.contains t) : t.length ≤ s.length := by
  rw [contains_iff] at h
  rw [length, length]
  omega

/-- Spans that hold one span with bytes are not apart. -/
theorem not_apart_of_contains (hr : r.start < r.stop) (hs : s.contains r) (ht : t.contains r) :
    ¬ s.Apart t := by
  rw [contains_iff] at hs ht
  rw [Apart]
  omega

/-- What holds a span that runs forwards runs forwards itself. -/
theorem forward_of_contains (h : s.contains r) (hr : r.start ≤ r.stop) : s.start ≤ s.stop := by
  simp only [contains, Bool.and_eq_true, decide_eq_true_eq] at h
  omega

/-- What lies within spans that are apart is apart. -/
theorem Apart.within (h : Apart s t) (hr : s.contains r) (hq : t.contains q) : Apart r q := by
  simp only [contains, Bool.and_eq_true, decide_eq_true_eq] at hr hq
  rw [Apart] at h ⊢
  omega

/-- Insertions at one offset within spans that are apart stand where these
meet. -/
theorem Apart.meetAt (h : Apart s t) (hr : s.contains r) (hq : t.contains q)
    (hins : SameInsertion r q) : MeetAt s t r.start := by
  simp only [contains, Bool.and_eq_true, decide_eq_true_eq] at hr hq
  obtain ⟨hre, hqe, heq⟩ := hins
  rw [Apart] at h
  rw [MeetAt]
  omega

/-! ## The order of spans -/

theorem order_eq_lt :
    s.order t = .lt ↔ s.start < t.start ∨ s.start = t.start ∧ s.stop < t.stop := by
  rw [order, Ordering.then_eq_lt, Nat.compare_eq_lt, Nat.compare_eq_eq, Nat.compare_eq_lt]

theorem order_eq_eq : s.order t = .eq ↔ s = t := by
  obtain ⟨a, b⟩ := s
  obtain ⟨c, d⟩ := t
  rw [order, Ordering.then_eq_eq, Nat.compare_eq_eq, Nat.compare_eq_eq, mk.injEq]

theorem order_eq_gt :
    s.order t = .gt ↔ t.start < s.start ∨ s.start = t.start ∧ t.stop < s.stop := by
  rw [order, Ordering.then_eq_gt, Nat.compare_eq_gt, Nat.compare_eq_eq, Nat.compare_eq_gt]

theorem le_iff : s.le t ↔ s.start < t.start ∨ s.start = t.start ∧ s.stop ≤ t.stop := by
  rw [le, Ordering.isLE_iff_ne_gt, order_eq_gt]
  omega

theorem le_trans (h : s.le t) (h' : t.le r) : s.le r := by
  rw [le_iff] at h h' ⊢
  omega

theorem le_total (s t : Span) : (s.le t || t.le s) = true := by
  rw [Bool.or_eq_true, le_iff, le_iff]
  omega

/-- Spans that are apart and in order follow each other. -/
theorem Apart.stop_le_start (h : Apart s t) (ht : t.start ≤ t.stop) (hle : s.le t) :
    s.stop ≤ t.start := by
  rw [le_iff] at hle
  rw [Apart] at h
  omega

end Span

end Remedy
