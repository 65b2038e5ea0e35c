import Mathlib.Data.List.Basic
import Remedy.Change.Match
/-!
# Sorting by comparisons

The comparisons of spans, positions and skips are transitive and oriented,
so sorting by them is sorting by an order. Sorting is stable: what is left
out of a list can be left out before or after it is sorted
(`filter_mergeSort`).
-/

namespace Remedy

open Std

/-- **A list in a strict order is known by its members.** -/
theorem eq_of_pairwise_of_mem_iff {α : Type} {r : α → α → Prop} {as bs : List α}
    (hasymm : ∀ a b, r a b → ¬ r b a) (ha : as.Pairwise r) (hb : bs.Pairwise r)
    (hmem : ∀ a, a ∈ as ↔ a ∈ bs) : as = bs := by
  have hnodup : ∀ {cs : List α}, cs.Pairwise r → cs.Nodup := by
    intro cs hcs
    refine hcs.imp ?_
    rintro a _ hab rfl
    exact hasymm a a hab hab
  exact ((List.perm_ext_iff_of_nodup (hnodup ha) (hnodup hb)).2 hmem).eq_of_pairwise
    (fun a b _ _ hab hba => absurd hba (hasymm a b hab)) ha hb

instance : TransCmp Span.order :=
  inferInstanceAs (TransCmp (compareLex (compareOn Span.start) (compareOn Span.stop)))

instance : TransCmp Position.order :=
  inferInstanceAs (TransCmp (compareLex (compareOn Position.line) (compareOn Position.column)))

section

variable {α β : Type} {cmp : β → β → Ordering} [TransCmp cmp]

instance : OrientedCmp (Location.orderOptional cmp) where
  eq_swap := by
    intro a b
    cases a with
    | none => cases b <;> rfl
    | some a =>
      cases b with
      | none => rfl
      | some b => exact @OrientedCmp.eq_swap β cmp _ a b

instance : TransCmp (Location.orderOptional cmp) where
  isLE_trans := by
    intro a b c hab hbc
    cases a with
    | none => cases c <;> rfl
    | some a =>
      -- nothing is behind a value, so the other two are values as well
      cases b with
      | none => exact absurd hab Bool.false_ne_true
      | some b =>
        cases c with
        | none => exact absurd hbc Bool.false_ne_true
        | some c => exact @TransCmp.isLE_trans β cmp _ a b c hab hbc

variable (cmp) in
/-- Values compared by what they are mapped to. -/
theorem transCmp_on (f : α → β) : TransCmp fun a b => cmp (f a) (f b) where
  eq_swap := OrientedCmp.eq_swap
  isLE_trans := TransCmp.isLE_trans

theorem isLE_or_isLE (a b : β) : ((cmp a b).isLE || (cmp b a).isLE) = true := by
  rw [@OrientedCmp.eq_swap β cmp _ b a]
  cases cmp a b <;> rfl

omit [TransCmp cmp] in
/-- A list that falls into what is ahead of a value and what is not, cut
there. -/
theorem filter_cut {a : β} {xs ys : List β} (hxs : ∀ b ∈ xs, !(cmp a b).isLE)
    (hys : ∀ b ∈ ys, (cmp a b).isLE) :
    (xs ++ ys).filter (fun b => !(cmp a b).isLE) = xs ∧
      (xs ++ ys).filter (fun b => (cmp a b).isLE) = ys := by
  have hxs' : ∀ b ∈ xs, ¬ (cmp a b).isLE = true := fun b hb => by simpa using hxs b hb
  have hys' : ∀ b ∈ ys, ¬ (!(cmp a b).isLE) = true := fun b hb => by simp [hys b hb]
  constructor
  · rw [List.filter_append, List.filter_eq_self.2 hxs, List.filter_eq_nil_iff.2 hys',
      List.append_nil]
  · rw [List.filter_append, List.filter_eq_nil_iff.2 hxs', List.filter_eq_self.2 hys,
      List.nil_append]

variable (cmp) in
/-- **Sorting is stable**: what is left of a sorted list is what is left of
the list, sorted. -/
theorem filter_mergeSort (p : β → Bool) (l : List β) :
    (l.mergeSort fun a b => (cmp a b).isLE).filter p =
      (l.filter p).mergeSort fun a b => (cmp a b).isLE := by
  have htrans : ∀ a b c : β, (cmp a b).isLE → (cmp b c).isLE → (cmp a c).isLE :=
    fun _ _ _ => TransCmp.isLE_trans
  induction l with
  | nil => simp
  | cons a l ih =>
    obtain ⟨l₁, l₂, hcons, hrest, hahead⟩ := List.mergeSort_cons htrans isLE_or_isLE a l
    rw [hrest, List.filter_append] at ih
    rw [hcons, List.filter_append]
    by_cases hp : p a
    · obtain ⟨k₁, k₂, kcons, krest, kahead⟩ :=
        List.mergeSort_cons htrans isLE_or_isLE a (l.filter p)
      rw [krest] at ih
      rw [List.filter_cons_of_pos hp, List.filter_cons_of_pos hp, kcons]
      -- both lists are cut where the first element goes, so their parts are the same
      have hsorted := List.pairwise_mergeSort htrans isLE_or_isLE (a :: l)
      have ksorted := List.pairwise_mergeSort htrans isLE_or_isLE (a :: l.filter p)
      rw [hcons] at hsorted
      rw [kcons] at ksorted
      have hbehind := (List.pairwise_cons.1 (List.pairwise_append.1 hsorted).2.1).1
      have kbehind := (List.pairwise_cons.1 (List.pairwise_append.1 ksorted).2.1).1
      have hcut : (l₁.filter p ++ l₂.filter p).filter _ = _ ∧ _ :=
        filter_cut (fun b hb => hahead b (List.mem_of_mem_filter hb))
          fun b hb => hbehind b (List.mem_of_mem_filter hb)
      have kcut : (k₁ ++ k₂).filter _ = _ ∧ _ := filter_cut kahead kbehind
      rw [ih] at hcut
      rw [← hcut.1, ← hcut.2, kcut.1, kcut.2]
    · rw [List.filter_cons_of_neg hp, List.filter_cons_of_neg hp]
      exact ih

end

instance : TransCmp Skip.order :=
  have := transCmp_on (Location.orderOptional Span.order) Skip.span
  have := transCmp_on (Location.orderOptional Position.order) Skip.start
  have := transCmp_on (Location.orderOptional (compare : String → String → Ordering)) Skip.codemod
  have := transCmp_on (compare : Nat → Nat → Ordering) fun s : Skip => s.reason.rank
  inferInstanceAs (TransCmp (compareLex
    (fun a b : Skip => Location.orderOptional Span.order a.span b.span)
    (compareLex (fun a b => Location.orderOptional Position.order a.start b.start)
      (compareLex (fun a b => Location.orderOptional compare a.codemod b.codemod)
        fun a b => compare a.reason.rank b.reason.rank))))

end Remedy
