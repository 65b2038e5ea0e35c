import Mathlib
import Remedy.Proofs.Java.Subtree
/-!
# A visit is the tree in pre-order

Where a visit stands, it has the places at hand and below before it, and then
those that stand behind on the way up, as far as it may climb (`Walk.left`).
A step takes the first of them off (`Walk.left_of_next?_eq_some`), so the
cursors below a tree are its places (`descendants_eq_subtree`) and are at its
trees in pre-order (`foci_descendants`).
-/

namespace Remedy

namespace Java

/-! ### The number of trees -/

theorem Tree.length_preorderParts (parts : List (Option Role × Tree)) :
    (Tree.preorderParts parts).length = Tree.sizeParts parts := by
  induction parts using Tree.inductParts with
  | nil => rfl
  | cons role t parts iht ihparts =>
    obtain ⟨kind, span, children⟩ := t
    rw [Tree.parts] at iht
    rw [Tree.preorderParts, Tree.sizeParts, List.length_append, ihparts, Tree.preorder, Tree.size,
      List.length_cons, iht]

theorem Tree.length_preorder (t : Tree) : t.preorder.length = t.size := by
  obtain ⟨kind, span, parts⟩ := t
  rw [Tree.preorder, Tree.size, List.length_cons, Tree.length_preorderParts]

/-! ### What is left of a visit -/

namespace Cursor

/-- The places of a tree are at its trees in pre-order. -/
theorem map_focus_placesOf (trail : List Crumb) (t : Tree) :
    (placesOf trail t).map focus = t.preorder := by
  induction t using Tree.induct generalizing trail with
  | h t ih =>
    obtain ⟨kind, span, parts⟩ := t
    have hamong : ∀ before, (placesAmong trail kind span before parts).map focus =
        Tree.preorderParts parts := by
      rw [Tree.parts] at ih
      induction parts with
      | nil => exact fun before => rfl
      | cons part parts ihparts =>
        intro before
        obtain ⟨role, u⟩ := part
        rw [placesAmong, List.map_append, Tree.preorderParts, ih (role, u) List.mem_cons_self,
          ihparts fun q hq => ih q (List.mem_cons_of_mem _ hq)]
    rw [placesOf, List.map_cons, hamong, Tree.preorder]

theorem map_focus_subtree (c : Cursor) : c.subtree.map focus = c.focus.preorder :=
  map_focus_placesOf c.trail c.focus

theorem length_subtree (c : Cursor) : c.subtree.length = c.focus.size := by
  rw [← Tree.length_preorder, ← map_focus_subtree, List.length_map]

end Cursor

namespace Walk

open Cursor (placesAmong)

/-- The places behind on the way up from a tree, at most `depth` levels
up. -/
def pending : List Crumb → Tree → Nat → List Cursor
  | crumb :: trail, t, depth + 1 =>
    placesAmong trail crumb.kind crumb.span ((crumb.role, t) :: crumb.before) crumb.after ++
      pending trail (crumb.around t) depth
  | _, _, _ => []

@[simp] theorem pending_zero (trail : List Crumb) (t : Tree) : pending trail t 0 = [] := by
  cases trail <;> rfl

/-- **What is left of a visit**: the places at hand and below, and those that
are pending. -/
def left (w : Walk) : List Cursor :=
  if w.finished then []
  else w.cursor.subtree ++ pending w.cursor.trail w.cursor.focus w.depth

variable {w rest : Walk} {c next : Cursor} {depth depth' : Nat}

@[simp] theorem left_finished (c : Cursor) (depth : Nat) : left ⟨c, depth, true⟩ = [] := rfl

@[simp] theorem left_unfinished (c : Cursor) (depth : Nat) :
    left ⟨c, depth, false⟩ = c.subtree ++ pending c.trail c.focus depth := rfl

/-- From a first child on, there is one place less to come by. -/
theorem left_of_firstChild?_eq_some (h : c.firstChild? = some next) :
    left ⟨c, depth, false⟩ = c :: left ⟨next, depth + 1, false⟩ := by
  obtain ⟨⟨kind, span, parts⟩, trail⟩ := c
  cases parts with
  | nil => cases h
  | cons part parts =>
    cases h
    rw [left_unfinished, left_unfinished, Cursor.subtree, Cursor.placesOf, placesAmong,
      List.cons_append, List.append_assoc]
    rfl

/-- A tree that has no child is the only place at and below it. -/
theorem left_of_firstChild?_eq_none (h : c.firstChild? = none) :
    left ⟨c, depth, false⟩ = c :: pending c.trail c.focus depth := by
  obtain ⟨⟨kind, span, parts⟩, trail⟩ := c
  cases parts with
  | nil => rfl
  | cons part parts => cases h

/-- What is pending begins at the next sibling, -/
theorem pending_of_nextSibling?_eq_some (h : c.nextSibling? = some next) :
    pending c.trail c.focus (depth + 1) = left ⟨next, depth + 1, false⟩ := by
  obtain ⟨focus, trail⟩ := c
  cases trail with
  | nil => cases h
  | cons crumb trail =>
    obtain ⟨kind, span, before, role, after⟩ := crumb
    cases after with
    | nil => cases h
    | cons part after =>
      obtain ⟨nextRole, t⟩ := part
      cases h
      rw [pending, placesAmong, List.append_assoc, left_unfinished, pending,
        Crumb.around_next kind]
      rfl

/-- and is what is pending at the parent if there is no next sibling. -/
theorem pending_of_parent?_eq_some (hnext : c.nextSibling? = none) (h : c.parent? = some next) :
    pending c.trail c.focus (depth + 1) = pending next.trail next.focus depth := by
  obtain ⟨focus, trail⟩ := c
  cases trail with
  | nil => cases h
  | cons crumb trail =>
    obtain ⟨kind, span, before, role, after⟩ := crumb
    cases after with
    | nil =>
      cases h
      rfl
    | cons part after => cases hnext

/-- A tree without a parent has nothing behind it. -/
theorem pending_of_parent?_eq_none (h : c.parent? = none) : pending c.trail c.focus depth = [] := by
  obtain ⟨focus, trail⟩ := c
  cases trail with
  | nil => rfl
  | cons crumb trail => cases h

/-- **Climbing leads to the next place that is pending.** -/
theorem pending_of_climb_eq_some (h : climb c depth = some (next, depth')) :
    pending c.trail c.focus depth = left ⟨next, depth', false⟩ := by
  induction depth generalizing c with
  | zero => cases h
  | succ depth ih =>
    rw [climb] at h
    split at h
    · next hnext =>
      cases h
      exact pending_of_nextSibling?_eq_some hnext
    · next hnext =>
      split at h
      · next hparent => rw [pending_of_parent?_eq_some hnext hparent, ih h]
      · cases h

/-- Where there is nothing to climb to, nothing is pending. -/
theorem pending_of_climb_eq_none (h : climb c depth = none) :
    pending c.trail c.focus depth = [] := by
  induction depth generalizing c with
  | zero => exact pending_zero _ _
  | succ depth ih =>
    rw [climb] at h
    split at h
    · cases h
    · next hnext =>
      split at h
      · next hparent => rw [pending_of_parent?_eq_some hnext hparent, ih h]
      · next hparent => exact pending_of_parent?_eq_none hparent

/-- **A step takes the first place off what is left**, -/
theorem left_of_next?_eq_some (h : w.next? = some (c, rest)) : w.left = c :: rest.left := by
  obtain ⟨c', depth, finished⟩ := w
  rw [next?] at h
  cases finished with
  | true => cases h
  | false =>
    simp only [Bool.false_eq_true, if_false] at h
    split at h
    · next hchild =>
      cases h
      exact left_of_firstChild?_eq_some hchild
    · next hchild =>
      rw [left_of_firstChild?_eq_none hchild]
      split at h
      · next hclimb =>
        cases h
        rw [pending_of_climb_eq_some hclimb]
      · next hclimb =>
        cases h
        rw [pending_of_climb_eq_none hclimb, left_finished]

/-- and there is none to take where nothing is left. -/
theorem left_of_next?_eq_none (h : w.next? = none) : w.left = [] := by
  obtain ⟨c, depth, finished⟩ := w
  rw [next?] at h
  cases finished with
  | true => rfl
  | false =>
    simp only [Bool.false_eq_true, if_false] at h
    split at h
    · cases h
    · split at h <;> cases h

/-- **A visit comes by the places that are left of it.** -/
theorem visit_eq_take (w : Walk) (fuel : Nat) : w.visit fuel = w.left.take fuel := by
  induction fuel generalizing w with
  | zero => rfl
  | succ fuel ih =>
    rw [visit]
    split
    · next h => rw [left_of_next?_eq_some h, List.take_succ_cons, ih]
    · next h => rw [left_of_next?_eq_none h, List.take_nil]

@[simp] theorem left_ofCursor (c : Cursor) : (ofCursor c).left = c.subtree := by
  rw [ofCursor, left_unfinished, pending_zero, List.append_nil]

end Walk

/-- **The cursors below a tree are its places.** -/
theorem descendants_eq_subtree (c : Cursor) : c.descendants = c.subtree := by
  rw [Cursor.descendants, Walk.visit_eq_take, Walk.left_ofCursor, ← Cursor.length_subtree,
    List.take_length]

/-- **The cursors below a tree are at its trees in pre-order**, each
once. -/
theorem foci_descendants (c : Cursor) : c.descendants.map Cursor.focus = c.focus.preorder := by
  rw [descendants_eq_subtree, Cursor.map_focus_subtree]

/-! ### Children -/

/-- The cursors from a child on are at it and at the children behind it. -/
theorem foci_siblings {c : Cursor} {crumb : Crumb} {trail : List Crumb} {fuel : Nat}
    (htrail : c.trail = crumb :: trail) (h : crumb.after.length ≤ fuel) :
    (c.siblings fuel).map Cursor.focus = c.focus :: crumb.after.map Prod.snd := by
  obtain ⟨focus, _⟩ := c
  obtain ⟨kind, span, before, role, after⟩ := crumb
  cases htrail
  induction fuel generalizing focus before role after with
  | zero => rw [List.length_eq_zero_iff.1 (Nat.le_zero.1 h)]; rfl
  | succ fuel ih =>
    cases after with
    | nil => rfl
    | cons part after =>
      obtain ⟨next, t⟩ := part
      exact congrArg (focus :: ·) (ih t _ next after (Nat.le_of_succ_le_succ h))

/-- **The cursors at the children are at the children**, in order. -/
theorem foci_children (c : Cursor) : c.children.map Cursor.focus = c.focus.children := by
  obtain ⟨⟨kind, span, parts⟩, trail⟩ := c
  cases parts with
  | nil => rfl
  | cons part parts =>
    obtain ⟨role, t⟩ := part
    exact foci_siblings (c := ⟨t, ⟨kind, span, [], role, parts⟩ :: trail⟩) rfl (Nat.le_succ _)

end Java

end Remedy
