import Mathlib
import Remedy.Java.Tree
import Remedy.Proofs.Text.Overlap
/-!
# Trees laid out along the text

A tree is laid out when the spans of the children of each tree in it stand
one after the other within the span of that tree (`Tree.LaidOut`). Two of
its trees are then apart, or one of them is below the other
(`LaidOut.apart_or_below`), and of the children of one tree no two share a
byte (`LaidOut.eq_of_overlap`).
-/

namespace Remedy

/-! ### Spans in a row -/

/-- **Spans one after the other**, between two offsets. -/
def Between (start stop : Nat) : List Span → Prop
  | [] => start ≤ stop
  | s :: ss => start ≤ s.start ∧ s.start ≤ s.stop ∧ Between s.stop stop ss

namespace Between

variable {start middle stop start' stop' : Nat} {s : Span} {ss ss' : List Span}

theorem le (h : Between start stop ss) : start ≤ stop := by
  induction ss generalizing start with
  | nil => exact h
  | cons s ss ih => exact (h.1.trans h.2.1).trans (ih h.2.2)

theorem append (h : Between start middle ss) (h' : Between middle stop ss') :
    Between start stop (ss ++ ss') := by
  induction ss generalizing start with
  | nil =>
    cases ss' with
    | nil => exact Nat.le_trans h h'
    | cons s ss' => exact ⟨Nat.le_trans h h'.1, h'.2⟩
  | cons s ss ih => exact ⟨h.1, h.2.1, ih h.2.2⟩

theorem widen (h : Between start stop ss) (hstart : start' ≤ start) (hstop : stop ≤ stop') :
    Between start' stop' ss := by
  induction ss generalizing start start' with
  | nil => exact (hstart.trans h).trans hstop
  | cons s ss ih => exact ⟨hstart.trans h.1, h.2.1, ih h.2.2 (Nat.le_refl _)⟩

theorem of_mem (h : Between start stop ss) (hs : s ∈ ss) :
    start ≤ s.start ∧ s.start ≤ s.stop ∧ s.stop ≤ stop := by
  induction ss generalizing start with
  | nil => cases hs
  | cons u ss ih =>
    rcases List.mem_cons.1 hs with rfl | hs
    · exact ⟨h.1, h.2.1, h.2.2.le⟩
    · have hlater := ih h.2.2 hs
      exact ⟨(h.1.trans h.2.1).trans hlater.1, hlater.2⟩

theorem pairwise (h : Between start stop ss) : ss.Pairwise fun s t => s.stop ≤ t.start := by
  induction ss generalizing start with
  | nil => exact .nil
  | cons s ss ih =>
    exact List.pairwise_cons.2 ⟨fun t ht => (h.2.2.of_mem ht).1, ih h.2.2⟩

end Between

namespace Java

namespace Tree

variable {s t u : Tree} {parts : List (Option Role × Tree)} {part : Option Role × Tree}

/-! ### Trees below a tree -/

/-- Trees have all that passes from children to their parents. -/
theorem induct {P : Tree → Prop} (h : ∀ t : Tree, (∀ part ∈ t.parts, P part.2) → P t) :
    ∀ t : Tree, P t
  | .node kind span parts => h (.node kind span parts) fun part hpart =>
      have hsmaller : sizeOf part.2 < sizeOf (Tree.node kind span parts) := by
        have hmem : sizeOf part < sizeOf parts := List.sizeOf_lt_of_mem hpart
        obtain ⟨role, t⟩ := part
        simp only [Prod.mk.sizeOf_spec, Tree.node.sizeOf_spec] at hmem ⊢
        omega
      induct h part.2
termination_by t => sizeOf t
decreasing_by exact hsmaller

/-- Children have all that passes from the children of each of them and
from those behind it. -/
theorem inductParts {P : List (Option Role × Tree) → Prop} (nil : P [])
    (cons : ∀ role t parts, P t.parts → P parts → P ((role, t) :: parts)) : ∀ parts, P parts
  | [] => nil
  | (role, t) :: parts => cons role t parts (ofChildren t) (inductParts nil cons parts)
where
  ofChildren (t : Tree) : P t.parts :=
    induct (P := fun t => P t.parts) (fun t ih => by
      obtain ⟨kind, span, parts⟩ := t
      induction parts with
      | nil => exact nil
      | cons part parts ihparts =>
        exact cons part.1 part.2 parts (ih part List.mem_cons_self)
          (ihparts fun q hq => ih q (List.mem_cons_of_mem _ hq))) t

theorem mem_preorderParts :
    s ∈ preorderParts parts ↔ ∃ part ∈ parts, s ∈ part.2.preorder := by
  induction parts with
  | nil => simp [preorderParts]
  | cons part parts ih => simp [preorderParts, ih]

theorem mem_preorderParts_cons {role : Option Role} :
    s ∈ preorderParts ((role, t) :: parts) ↔ s ∈ t.preorder ∨ s ∈ preorderParts parts := by
  rw [preorderParts, List.mem_append]

theorem mem_preorderParts_singleton {role : Option Role} :
    s ∈ preorderParts [(role, t)] ↔ s ∈ t.preorder := by
  rw [mem_preorderParts_cons, or_iff_left nofun]

theorem mem_preorderParts_append {more : List (Option Role × Tree)} :
    s ∈ preorderParts (parts ++ more) ↔ s ∈ preorderParts parts ∨ s ∈ preorderParts more := by
  simp only [mem_preorderParts, List.mem_append, or_and_right, exists_or]

theorem mem_preorder : s ∈ t.preorder ↔ s = t ∨ ∃ part ∈ t.parts, s ∈ part.2.preorder := by
  cases t
  rw [preorder, List.mem_cons, mem_preorderParts, Tree.parts]

@[simp] theorem mem_preorder_self (t : Tree) : t ∈ t.preorder := mem_preorder.2 (.inl rfl)

/-- A leaf is alone. -/
theorem eq_of_mem_leaf (hleaf : t.parts = []) (hs : s ∈ t.preorder) : s = t := by
  rcases mem_preorder.1 hs with heq | ⟨part, hpart, -⟩
  · exact heq
  · rw [hleaf] at hpart
    cases hpart

theorem mem_preorder_of_part (hpart : part ∈ t.parts) (h : s ∈ part.2.preorder) :
    s ∈ t.preorder :=
  mem_preorder.2 (.inr ⟨part, hpart, h⟩)

/-- The child that plays a role is one of the children, in that role. -/
theorem mem_parts_of_child? {role : Role} (h : t.child? role = some s) :
    (some role, s) ∈ t.parts := by
  obtain ⟨⟨other, u⟩, hpart, rfl⟩ := List.mem_map.1 (List.mem_of_mem_head? h)
  obtain ⟨hmem, hrole⟩ := List.mem_filter.1 hpart
  rwa [← eq_of_beq hrole]

/-- Children in different roles are different. -/
theorem part_ne {role role' : Option Role} (h : role ≠ role') : (role, s) ≠ (role', t) :=
  fun heq => h (congrArg Prod.fst heq)

theorem preorder_trans (hs : s ∈ t.preorder) (ht : t ∈ u.preorder) : s ∈ u.preorder := by
  induction u using induct with
  | h u ih =>
    rcases mem_preorder.1 ht with rfl | ⟨part, hpart, ht⟩
    · exact hs
    · exact mem_preorder_of_part hpart (ih part hpart ht)

theorem mem_preorder_of_preorderParts (hs : s ∈ preorderParts t.parts) : s ∈ t.preorder :=
  mem_preorder.2 (.inr (mem_preorderParts.1 hs))

theorem mem_preorder_of_child? {role : Role} (h : t.child? role = some u) (hs : s ∈ u.preorder) :
    s ∈ t.preorder :=
  mem_preorder_of_part (mem_parts_of_child? h) hs

theorem preorderParts_trans (hs : s ∈ t.preorder) (ht : t ∈ preorderParts parts) :
    s ∈ preorderParts parts := by
  obtain ⟨part, hpart, ht⟩ := mem_preorderParts.1 ht
  exact mem_preorderParts.2 ⟨part, hpart, preorder_trans hs ht⟩

/-- No tree is below itself. -/
theorem not_mem_preorderParts_self (t : Tree) : t ∉ preorderParts t.parts := by
  induction t using induct with
  | h t ih =>
    intro hmem
    obtain ⟨part, hpart, ht⟩ := mem_preorderParts.1 hmem
    have hbelow : part.2 ∈ preorderParts t.parts :=
      mem_preorderParts.2 ⟨part, hpart, part.2.mem_preorder_self⟩
    rcases mem_preorder.1 ht with heq | ht
    · exact ih part hpart (heq ▸ hbelow)
    · exact ih part hpart (preorderParts_trans (mem_preorder_of_preorderParts hbelow)
        (mem_preorderParts.2 ht))

/-- Trees have all that passes from everything below a tree to it. -/
theorem inductBelow {P : Tree → Prop} (h : ∀ t : Tree, (∀ s ∈ preorderParts t.parts, P s) → P t)
    (t : Tree) : P t := by
  have hall : ∀ s ∈ t.preorder, P s := by
    induction t using induct with
    | h t ih =>
      have hbelow : ∀ s ∈ preorderParts t.parts, P s := by
        intro s hs
        obtain ⟨part, hpart, hs⟩ := mem_preorderParts.1 hs
        exact ih part hpart s hs
      intro s hs
      rcases mem_preorder.1 hs with rfl | hs
      · exact h s hbelow
      · exact hbelow s (mem_preorderParts.2 hs)
  exact hall t t.mem_preorder_self

/-! ### The layout -/

/-- The spans of the children, in order. -/
def spansOf (parts : List (Option Role × Tree)) : List Span := parts.map fun part => part.2.span

/-- From the start of the first child to the end of the last one, there is
the same row. -/
theorem between_tighten {start stop : Nat} (h : Between start stop (spansOf (part :: parts))) :
    Between part.2.span.start ((part :: parts).getLast (List.cons_ne_nil _ _)).2.span.stop
      (spansOf (part :: parts)) := by
  induction parts generalizing part start with
  | nil => exact ⟨Nat.le_refl _, h.2.1, Nat.le_refl _⟩
  | cons next parts ih =>
    rw [List.getLast_cons_cons]
    exact ⟨Nat.le_refl _, h.2.1, h.2.2.1, (ih h.2.2).2⟩

/-- The children stand one after the other within the span of the tree. -/
def InOrder (t : Tree) : Prop := Between t.span.start t.span.stop (spansOf t.parts)

/-- **A tree laid out along the text**: in every tree of it, the children
stand one after the other. -/
def LaidOut (t : Tree) : Prop := ∀ s ∈ t.preorder, s.InOrder

namespace LaidOut

theorem inOrder (h : t.LaidOut) : t.InOrder := h t t.mem_preorder_self

theorem of_mem (h : t.LaidOut) (hs : s ∈ t.preorder) : s.LaidOut :=
  fun _ hu => h _ (preorder_trans hu hs)

theorem child (h : t.LaidOut) (hpart : part ∈ t.parts) : part.2.LaidOut :=
  h.of_mem (mem_preorder_of_part hpart part.2.mem_preorder_self)

theorem child_within (h : t.LaidOut) (hpart : part ∈ t.parts) :
    t.span.start ≤ part.2.span.start ∧ part.2.span.start ≤ part.2.span.stop ∧
      part.2.span.stop ≤ t.span.stop :=
  h.inOrder.of_mem (List.mem_map_of_mem hpart)

/-- A tree covers all trees in it. -/
theorem within (h : t.LaidOut) (hs : s ∈ t.preorder) :
    t.span.start ≤ s.span.start ∧ s.span.stop ≤ t.span.stop := by
  induction t using induct with
  | h t ih =>
    rcases mem_preorder.1 hs with rfl | ⟨part, hpart, hs⟩
    · exact ⟨Nat.le_refl _, Nat.le_refl _⟩
    · have hin := ih part hpart (h.child hpart) hs
      have hout := h.child_within hpart
      omega

theorem contains (h : t.LaidOut) (hs : s ∈ t.preorder) : t.span.contains s.span :=
  Span.contains_iff.2 (h.within hs)

/-- Children of one tree that share a byte are the same child. -/
theorem eq_of_overlap (h : t.LaidOut) {part other : Option Role × Tree} (hpart : part ∈ t.parts)
    (hother : other ∈ t.parts) (hoverlap : ¬ part.2.span.Apart other.2.span) : part = other := by
  by_contra hne
  have hsymm : Std.Symm fun p q : Option Role × Tree => p.2.span.Apart q.2.span :=
    ⟨fun _ _ => Span.Apart.symm⟩
  have hrow : t.parts.Pairwise fun p q => p.2.span.Apart q.2.span :=
    (List.pairwise_map.1 h.inOrder.pairwise).imp fun hle => Or.inl hle
  exact hoverlap (hrow.forall hpart hother hne)

/-- A tree with bytes is in one child only. -/
theorem eq_of_mem_both (h : t.LaidOut) {part other : Option Role × Tree} (hpart : part ∈ t.parts)
    (hother : other ∈ t.parts) (hs : s ∈ part.2.preorder) (hs' : s ∈ other.2.preorder)
    (hbytes : s.span.start < s.span.stop) : part = other :=
  h.eq_of_overlap hpart hother (Span.not_apart_of_contains hbytes ((h.child hpart).contains hs)
    ((h.child hother).contains hs'))

/-- **Two trees in a tree are apart, or one is in the other.** -/
theorem apart_or_below (h : t.LaidOut) (hs : s ∈ t.preorder) (hu : u ∈ t.preorder) :
    s.span.Apart u.span ∨ s ∈ u.preorder ∨ u ∈ s.preorder := by
  induction t using induct with
  | h t ih =>
    rcases mem_preorder.1 hs with rfl | ⟨part, hpart, hs'⟩
    · exact .inr (.inr hu)
    · rcases mem_preorder.1 hu with rfl | ⟨other, hother, hu'⟩
      · exact .inr (.inl hs)
      · by_cases hoverlap : part.2.span.Apart other.2.span
        · have hsin := (h.child hpart).within hs'
          have huin := (h.child hother).within hu'
          refine .inl (hoverlap.imp ?_ ?_) <;> omega
        · cases h.eq_of_overlap hpart hother hoverlap
          exact ih part hpart (h.child hpart) hs' hu'

/-- Trees around some bytes are in one another. -/
theorem mem_or_mem_of_contains {place : Span} (h : t.LaidOut) (hs : s ∈ t.preorder)
    (hu : u ∈ t.preorder) (hbytes : place.start < place.stop) (hsplace : s.span.contains place)
    (huplace : u.span.contains place) : s ∈ u.preorder ∨ u ∈ s.preorder :=
  (h.apart_or_below hs hu).resolve_left (Span.not_apart_of_contains hbytes hsplace huplace)

/-- **A tree with bytes has one parent.** -/
theorem parent_unique {p p' : Tree} {role role' : Option Role} (h : t.LaidOut)
    (hp : p ∈ t.preorder) (hp' : p' ∈ t.preorder) (hs : (role, s) ∈ p.parts)
    (hs' : (role', s) ∈ p'.parts) (hbytes : s.span.start < s.span.stop) : p = p' := by
  -- an inner parent would be in the child of the outer one, and so in its own child
  have hinner : ∀ {p p' : Tree} {role role' : Option Role}, p'.LaidOut → p ∈ p'.preorder →
      (role, s) ∈ p.parts → (role', s) ∈ p'.parts → p = p' := by
    intro p p' role role' hlaid hmem hs hs'
    rcases mem_preorder.1 hmem with heq | ⟨part, hpart, hin⟩
    · exact heq
    · have hchild : s ∈ preorderParts p.parts :=
        mem_preorderParts.2 ⟨_, hs, s.mem_preorder_self⟩
      obtain rfl := hlaid.eq_of_mem_both hpart hs'
        (preorder_trans (mem_preorder_of_preorderParts hchild) hin) s.mem_preorder_self hbytes
      exact absurd (preorderParts_trans hin hchild) (not_mem_preorderParts_self p)
  have hin := (h.of_mem hp).contains (mem_preorder_of_part hs s.mem_preorder_self)
  have hin' := (h.of_mem hp').contains (mem_preorder_of_part hs' s.mem_preorder_self)
  rcases h.mem_or_mem_of_contains hp hp' hbytes hin hin' with hbelow | hbelow
  · exact hinner (h.of_mem hp') hbelow hs hs'
  · exact (hinner (h.of_mem hp) hbelow hs' hs).symm

/-- Leaves with the same bytes are the same leaf. -/
theorem eq_of_leaves (h : t.LaidOut) (hs : s ∈ t.preorder) (hu : u ∈ t.preorder)
    (hsleaf : s.parts = []) (huleaf : u.parts = []) (hspan : s.span = u.span)
    (hbytes : s.span.start < s.span.stop) : s = u := by
  rcases h.apart_or_below hs hu with hapart | hbelow | hbelow
  · rw [← hspan, Span.Apart] at hapart
    omega
  · exact eq_of_mem_leaf huleaf hbelow
  · exact (eq_of_mem_leaf hsleaf hbelow).symm

/-- What is below a tree and shares a byte with one of its children is in
that child. -/
theorem mem_of_overlap (h : t.LaidOut) (hs : s ∈ t.preorder) (hne : s ≠ t)
    (hpart : part ∈ t.parts) (hoverlap : ¬ s.span.Apart part.2.span) : s ∈ part.2.preorder := by
  obtain heq | ⟨other, hother, hs⟩ := mem_preorder.1 hs
  · exact absurd heq hne
  · have hin := (h.child hother).within hs
    obtain rfl : other = part := by
      refine h.eq_of_overlap hother hpart fun hapart => hoverlap (hapart.imp ?_ ?_) <;> omega
    exact hs

end LaidOut

/-- **Children laid out** between two offsets, with all below them. -/
structure Laid (start stop : Nat) (parts : List (Option Role × Tree)) : Prop where
  between : Between start stop (spansOf parts)
  inOrder : ∀ s ∈ preorderParts parts, s.InOrder

theorem laidOut_iff : t.LaidOut ↔ Laid t.span.start t.span.stop t.parts := by
  constructor
  · intro h
    refine ⟨h.inOrder, fun s hs => h s ?_⟩
    obtain ⟨part, hpart, hs⟩ := mem_preorderParts.1 hs
    exact mem_preorder_of_part hpart hs
  · intro h s hs
    rcases mem_preorder.1 hs with rfl | hs
    · exact h.between
    · exact h.inOrder s (mem_preorderParts.2 hs)

namespace Laid

variable {start middle stop : Nat} {more : List (Option Role × Tree)}

theorem nil (h : start ≤ stop) : Laid start stop [] := ⟨h, nofun⟩

theorem cons_iff {role : Option Role} : Laid start stop ((role, t) :: parts) ↔
    start ≤ t.span.start ∧ t.span.start ≤ t.span.stop ∧ t.LaidOut ∧
      Laid t.span.stop stop parts := by
  constructor
  · intro h
    exact ⟨h.between.1, h.between.2.1,
      fun s hs => h.inOrder s (mem_preorderParts_cons.2 (.inl hs)), h.between.2.2,
      fun s hs => h.inOrder s (mem_preorderParts_cons.2 (.inr hs))⟩
  · rintro ⟨hstart, hspan, ht, hparts⟩
    exact ⟨⟨hstart, hspan, hparts.between⟩,
      fun s hs => (mem_preorderParts_cons.1 hs).elim (ht s) (hparts.inOrder s)⟩

theorem append (h : Laid start middle parts) (hmore : Laid middle stop more) :
    Laid start stop (parts ++ more) where
  between := by
    rw [spansOf, List.map_append]
    exact h.between.append hmore.between
  inOrder s hs := (mem_preorderParts_append.1 hs).elim (h.inOrder s) (hmore.inOrder s)

theorem widen {start' stop' : Nat} (h : Laid start stop parts) (hstart : start' ≤ start)
    (hstop : stop ≤ stop') : Laid start' stop' parts :=
  ⟨h.between.widen hstart hstop, h.inOrder⟩

end Laid

end Tree

end Java

end Remedy
