import Mathlib.Order.RelClasses
import Remedy.Change.Plan
import Remedy.Proofs.Text.Overlap
/-!
# The rank of matches

Two orders of matches are read off their comparisons: how they stand in a
file (`Match.StandsBefore`) and which one is considered first
(`Match.Outranks`). Both are strict, and each two matches of different
codemods or spans stand in both (`standsBefore_or`, `outranks_or`); so
sorting by either leaves nothing to chance.
-/

namespace Remedy

namespace Match

variable {a b c : Match}

/-- **A match stands before another one in a file**: by where its site
starts, then by where it ends, then by the place of its codemod. -/
def StandsBefore (a b : Match) : Prop :=
  a.site.span.start < b.site.span.start ∨ a.site.span.start = b.site.span.start ∧
    (a.site.span.stop < b.site.span.stop ∨
      a.site.span.stop = b.site.span.stop ∧ a.codemod < b.codemod)

/-- **A match outranks another one**: by a higher priority, and at equal
priority by standing before it. -/
def Outranks (a b : Match) : Prop :=
  b.priority < a.priority ∨ a.priority = b.priority ∧ a.StandsBefore b

/-! ## The order in a file -/

theorem order_eq_gt : a.order b = .gt ↔ b.StandsBefore a := by
  rw [order, Ordering.then_eq_gt, Span.order_eq_gt, Span.order_eq_eq, Nat.compare_eq_gt,
    StandsBefore]
  have hspan : a.site.span = b.site.span ↔
      a.site.span.start = b.site.span.start ∧ a.site.span.stop = b.site.span.stop :=
    Span.mk.injEq .. ▸ Iff.rfl
  rw [hspan]
  omega

/-- A match is not put behind another one unless it stands behind it. -/
theorem isLE_order : (a.order b).isLE ↔ ¬ b.StandsBefore a := by
  rw [Ordering.isLE_iff_ne_gt, ← order_eq_gt]

theorem isLE_order_trans (hab : (a.order b).isLE) (hbc : (b.order c).isLE) :
    (a.order c).isLE := by
  simp only [isLE_order, StandsBefore] at *
  omega

theorem isLE_order_total (a b : Match) : ((a.order b).isLE || (b.order a).isLE) = true := by
  simp only [Bool.or_eq_true, isLE_order, StandsBefore]
  omega

/-- Matches of different codemods or spans stand in order. -/
theorem standsBefore_or (h : (a.codemod, a.site.span) ≠ (b.codemod, b.site.span)) :
    a.StandsBefore b ∨ b.StandsBefore a := by
  by_contra hneither
  simp only [StandsBefore] at hneither
  refine h (Prod.ext (by simp only; omega) ?_)
  rw [← Span.order_eq_eq, Span.order]
  simp only [Ordering.then_eq_eq, Nat.compare_eq_eq]
  omega

/-! ## The order of rank -/

theorem orderByRank_eq_gt : Plan.orderByRank a b = .gt ↔ b.Outranks a := by
  rw [Plan.orderByRank, Ordering.then_eq_gt, Int.compare_eq_gt, Int.compare_eq_eq, order_eq_gt,
    Outranks]

/-- A match is not considered after another one unless that one outranks
it. -/
theorem isLE_orderByRank : (Plan.orderByRank a b).isLE ↔ ¬ b.Outranks a := by
  rw [Ordering.isLE_iff_ne_gt, ← orderByRank_eq_gt]

theorem isLE_orderByRank_trans (hab : (Plan.orderByRank a b).isLE)
    (hbc : (Plan.orderByRank b c).isLE) : (Plan.orderByRank a c).isLE := by
  simp only [isLE_orderByRank, Outranks, StandsBefore] at *
  omega

theorem isLE_orderByRank_total (a b : Match) :
    ((Plan.orderByRank a b).isLE || (Plan.orderByRank b a).isLE) = true := by
  simp only [Bool.or_eq_true, isLE_orderByRank, Outranks, StandsBefore]
  omega

/-- **Of matches of different codemods or spans one outranks the other.** -/
theorem outranks_or (h : (a.codemod, a.site.span) ≠ (b.codemod, b.site.span)) :
    a.Outranks b ∨ b.Outranks a := by
  rcases Int.lt_trichotomy a.priority b.priority with hlower | hsame | hhigher
  · exact Or.inr (Or.inl hlower)
  · rcases standsBefore_or h with hab | hba
    · exact Or.inl (Or.inr ⟨hsame, hab⟩)
    · exact Or.inr (Or.inr ⟨hsame.symm, hba⟩)
  · exact Or.inl (Or.inl hhigher)

/-- Nothing outranks itself, and what outranks a match outranks all that it
outranks. -/
instance : IsStrictOrder Match Outranks where
  irrefl := by
    intro a h
    simp only [Outranks, StandsBefore] at h
    omega
  trans := by
    intro a b c hab hbc
    simp only [Outranks, StandsBefore] at *
    omega

end Match

end Remedy
