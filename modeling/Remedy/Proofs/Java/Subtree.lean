import Mathlib
import Remedy.Java.Cursor
import Remedy.Proofs.Java.Layout
/-!
# The places of a tree

Trees that are written alike may stand at several places of one tree, so a
place is told by its cursor: by the tree that the cursor moves in
(`Cursor.root`) and by the children that are taken on the way down
(`Cursor.address`). The places at and below a cursor are those of the same
tree whose addresses go on from its own (`Cursor.mem_subtree_iff`). They are
listed in the order of their addresses, and none twice
(`Cursor.pairwise_subtree`).
-/

namespace Remedy

namespace Java

/-- The parent that a crumb is left of, with a child at its place. -/
def Crumb.around (crumb : Crumb) (t : Tree) : Tree :=
  .node crumb.kind crumb.span (crumb.before.reverse ++ (crumb.role, t) :: crumb.after)

/-- A child and the one behind it are of one parent. -/
theorem Crumb.around_next (kind : Kind) (span : Span) (before after : List (Option Role × Tree))
    (role nextRole : Option Role) (t next : Tree) :
    around ⟨kind, span, (role, t) :: before, nextRole, after⟩ next =
      around ⟨kind, span, before, role, (nextRole, next) :: after⟩ t := by
  rw [around, around, List.reverse_cons, List.append_assoc, List.singleton_append]

namespace Cursor

/-- **The tree that a cursor moves in**: all that is above it, put around the
tree at hand. -/
def root (c : Cursor) : Tree := c.trail.foldl (fun t crumb => crumb.around t) c.focus

/-- **The address of a cursor**: the number of the child that is taken at
each step down from the root. -/
def address (c : Cursor) : List Nat := (c.trail.map fun crumb => crumb.before.length).reverse

mutual

/-- The places of a tree that stands below a trail. -/
def placesOf (trail : List Crumb) : Tree → List Cursor
  | .node kind span parts =>
    ⟨.node kind span parts, trail⟩ :: placesAmong trail kind span [] parts

/-- The places of children, from one of them on. -/
def placesAmong (trail : List Crumb) (kind : Kind) (span : Span)
    (before : List (Option Role × Tree)) : List (Option Role × Tree) → List Cursor
  | [] => []
  | (role, t) :: after =>
    placesOf (⟨kind, span, before, role, after⟩ :: trail) t ++
      placesAmong trail kind span ((role, t) :: before) after

end

/-- **The places at and below a cursor**, each before those below it. -/
def subtree (c : Cursor) : List Cursor := placesOf c.trail c.focus

variable {c d : Cursor} {t u : Tree} {crumb : Crumb} {crumbs trail : List Crumb}
  {kind : Kind} {span : Span} {before parts : List (Option Role × Tree)}

/-! ### Roots and addresses -/

theorem root_append (t : Tree) (crumbs trail : List Crumb) :
    root ⟨t, crumbs ++ trail⟩ = root ⟨root ⟨t, crumbs⟩, trail⟩ := List.foldl_append

theorem root_concat (t : Tree) (crumbs : List Crumb) (crumb : Crumb) :
    root ⟨t, crumbs ++ [crumb]⟩ = crumb.around (root ⟨t, crumbs⟩) := root_append t crumbs [crumb]

@[simp] theorem length_address (c : Cursor) : c.address.length = c.trail.length := by
  rw [address, List.length_reverse, List.length_map]

theorem address_append (t u : Tree) (crumbs trail : List Crumb) :
    address ⟨t, crumbs ++ trail⟩ = address ⟨u, trail⟩ ++ address ⟨t, crumbs⟩ := by
  rw [address, List.map_append, List.reverse_append]
  rfl

theorem address_cons (t u : Tree) (crumb : Crumb) (trail : List Crumb) :
    address ⟨t, crumb :: trail⟩ = address ⟨u, trail⟩ ++ [crumb.before.length] :=
  address_append t u [crumb] trail

/-- **A place is known** by the tree that it is in and its address there. -/
theorem eq_of_address (hroot : c.root = d.root) (haddress : c.address = d.address) : c = d := by
  obtain ⟨t, trail⟩ := c
  obtain ⟨u, trail'⟩ := d
  induction trail generalizing t u trail' with
  | nil =>
    have hlength := congrArg List.length haddress
    rw [length_address, length_address] at hlength
    obtain rfl : trail' = [] := List.length_eq_zero_iff.1 hlength.symm
    exact congrArg (Cursor.mk · []) hroot
  | cons crumb trail ih =>
    cases trail' with
    | nil =>
      have hlength := congrArg List.length haddress
      rw [length_address, length_address] at hlength
      cases hlength
    | cons crumb' trail' =>
      rw [address_cons t (crumb.around t), address_cons u (crumb'.around u)] at haddress
      obtain ⟨habove, hnumber⟩ := List.append_inj' haddress rfl
      have hparents := ih (crumb.around t) (crumb'.around u) trail' hroot habove
      obtain ⟨kind, span, before, role, after⟩ := crumb
      obtain ⟨kind', span', before', role', after'⟩ := crumb'
      -- the parents are one tree, and the children have the same number in it
      simp only [Cursor.mk.injEq, Crumb.around, Tree.node.injEq] at hparents
      obtain ⟨⟨rfl, rfl, hparts⟩, rfl⟩ := hparents
      have hlengths : before.reverse.length = before'.reverse.length := by
        rw [List.length_reverse, List.length_reverse]
        exact List.head_eq_of_cons_eq hnumber
      obtain ⟨hbefore, hrest⟩ := List.append_inj hparts hlengths
      obtain ⟨hchild, rfl⟩ := List.cons.inj hrest
      rw [List.reverse_inj] at hbefore
      cases hbefore
      cases hchild
      rfl

/-! ### The moves -/

/-- The first child is in the same tree, one level below. -/
theorem firstChild?_eq_some (h : c.firstChild? = some d) :
    d.root = c.root ∧ d.address = c.address ++ [0] := by
  obtain ⟨⟨kind, span, parts⟩, trail⟩ := c
  cases parts with
  | nil => cases h
  | cons part parts =>
    cases h
    exact ⟨rfl, address_cons _ _ _ _⟩

/-- The next sibling is in the same tree, at the number behind. -/
theorem nextSibling?_eq_some (h : c.nextSibling? = some d) :
    d.root = c.root ∧ ∃ above n, c.address = above ++ [n] ∧ d.address = above ++ [n + 1] := by
  obtain ⟨focus, trail⟩ := c
  cases trail with
  | nil => cases h
  | cons crumb trail =>
    obtain ⟨kind, span, before, role, after⟩ := crumb
    cases after with
    | nil => cases h
    | cons part after =>
      cases h
      refine ⟨?_, address ⟨focus, trail⟩, before.length, address_cons _ _ _ _,
        address_cons _ _ _ _⟩
      exact congrArg (fun t => root ⟨t, trail⟩) (Crumb.around_next kind span before after role _ _ _)

/-- The parent is in the same tree, one level above. -/
theorem parent?_eq_some (h : c.parent? = some d) :
    d.root = c.root ∧ ∃ n, c.address = d.address ++ [n] := by
  obtain ⟨focus, trail⟩ := c
  cases trail with
  | nil => cases h
  | cons crumb trail =>
    cases h
    exact ⟨rfl, crumb.before.length, address_cons _ _ _ _⟩

theorem parent?_eq_none (h : c.parent? = none) : c.address = [] := by
  obtain ⟨focus, trail⟩ := c
  cases trail with
  | nil => rfl
  | cons crumb trail => cases h

/-! ### What is at and below a cursor -/

/-- A place among children is at or below one of them. -/
theorem mem_placesAmong_iff : d ∈ placesAmong trail kind span before parts ↔
    ∃ front role u after, parts = front ++ (role, u) :: after ∧
      d ∈ placesOf (⟨kind, span, front.reverse ++ before, role, after⟩ :: trail) u := by
  induction parts generalizing before with
  | nil =>
    rw [placesAmong]
    constructor
    · intro h
      cases h
    · rintro ⟨front, _, _, _, hparts, -⟩
      cases front <;> cases hparts
  | cons part parts ih =>
    obtain ⟨role, t⟩ := part
    rw [placesAmong, List.mem_append, ih]
    constructor
    · rintro (hfirst | ⟨front, role', u, after, rfl, hlater⟩)
      · exact ⟨[], role, t, parts, rfl, hfirst⟩
      · refine ⟨(role, t) :: front, role', u, after, rfl, ?_⟩
        rwa [List.reverse_cons, List.append_assoc, List.singleton_append]
    · rintro ⟨front, role', u, after, hparts, hmem⟩
      cases front with
      | nil =>
        cases hparts
        exact .inl hmem
      | cons _ front =>
        cases hparts
        refine .inr ⟨front, role', u, after, rfl, ?_⟩
        rwa [List.reverse_cons, List.append_assoc, List.singleton_append] at hmem

/-- **A place is at or below another one** if its trail leads there and what
is put around it on this way is the tree there. -/
theorem mem_placesOf_iff : d ∈ placesOf trail t ↔
    ∃ crumbs, d.trail = crumbs ++ trail ∧ root ⟨d.focus, crumbs⟩ = t := by
  obtain ⟨focus, trail'⟩ := d
  induction t using Tree.induct generalizing trail with
  | h t ih =>
    obtain ⟨kind, span, parts⟩ := t
    rw [placesOf, List.mem_cons, mem_placesAmong_iff]
    constructor
    · rintro (hself | ⟨front, role, u, after, hparts, hbelow⟩)
      · cases hself
        exact ⟨[], rfl, rfl⟩
      · have hpart : (role, u) ∈ parts := hparts ▸ List.mem_append_right _ List.mem_cons_self
        obtain ⟨crumbs, htrail, hroot⟩ := (ih (role, u) hpart).1 hbelow
        refine ⟨crumbs ++ [⟨kind, span, front.reverse ++ [], role, after⟩], ?_, ?_⟩
        · rw [htrail, List.append_assoc, List.singleton_append]
        · rw [root_concat, hroot, Crumb.around, List.append_nil, List.reverse_reverse, hparts]
    · rintro ⟨crumbs, htrail, hroot⟩
      rcases List.eq_nil_or_concat crumbs with rfl | ⟨inner, crumb, rfl⟩
      · exact .inl (congrArg₂ Cursor.mk hroot htrail)
      · rw [List.concat_eq_append] at htrail hroot
        obtain ⟨kind', span', before, role, after⟩ := crumb
        rw [root_concat, Crumb.around, Tree.node.injEq] at hroot
        obtain ⟨rfl, rfl, hparts⟩ := hroot
        have hpart : (role, root ⟨focus, inner⟩) ∈ parts :=
          hparts ▸ List.mem_append_right _ List.mem_cons_self
        refine .inr ⟨before.reverse, role, _, after, hparts.symm,
          (ih (role, root ⟨focus, inner⟩) hpart).2 ⟨inner, ?_, rfl⟩⟩
        rw [List.reverse_reverse, List.append_nil, htrail, List.append_assoc,
          List.singleton_append]

theorem mem_subtree : d ∈ c.subtree ↔
    ∃ crumbs, d.trail = crumbs ++ c.trail ∧ root ⟨d.focus, crumbs⟩ = c.focus :=
  mem_placesOf_iff

@[simp] theorem self_mem_subtree (c : Cursor) : c ∈ c.subtree := mem_subtree.2 ⟨[], rfl, rfl⟩

/-- **The places at and below a cursor** are those of its tree whose
addresses go on from its own. -/
theorem mem_subtree_iff : d ∈ c.subtree ↔ d.root = c.root ∧ c.address <+: d.address := by
  obtain ⟨t, trail⟩ := c
  obtain ⟨u, trail'⟩ := d
  rw [mem_subtree]
  constructor
  · rintro ⟨crumbs, rfl, hroot⟩
    dsimp only at hroot
    refine ⟨by rw [root_append, hroot], ?_⟩
    rw [address_append u t]
    exact List.prefix_append _ _
  · rintro ⟨hroot, haddress⟩
    have hlength := haddress.length_le
    rw [length_address, length_address] at hlength
    -- the trail is cut where it is as long as the one of the cursor above
    generalize hcut : trail'.length - trail.length = n at hlength
    have hbelow : (trail'.drop n).length = trail.length := by
      rw [List.length_drop]
      dsimp only at hlength
      omega
    rw [← List.take_append_drop n trail', root_append] at hroot
    rw [← List.take_append_drop n trail', address_append u (root ⟨u, trail'.take n⟩)] at haddress
    have habove := (List.prefix_of_prefix_length_le haddress (List.prefix_append _ _)
      (by rw [length_address, length_address, hbelow])).eq_of_length
      (by rw [length_address, length_address, hbelow])
    have heq := eq_of_address hroot habove.symm
    rw [Cursor.mk.injEq] at heq
    refine ⟨trail'.take n, ?_, heq.1⟩
    rw [← heq.2, List.take_append_drop]

/-! ### The order of the places -/

/-- The places of a tree have addresses that go on from its own. -/
theorem exists_address (h : d ∈ placesOf trail t) :
    ∃ rest, d.address = address ⟨t, trail⟩ ++ rest := by
  obtain ⟨crumbs, htrail, -⟩ := mem_placesOf_iff.1 h
  obtain ⟨u, trail'⟩ := d
  cases htrail
  exact ⟨_, address_append u t crumbs trail⟩

/-- **The places of a tree are in the order of their addresses**: each is
ahead of those below it, and those of one child are ahead of those of the
next. -/
theorem pairwise_placesOf (trail : List Crumb) (t : Tree) :
    (placesOf trail t).Pairwise fun d e => d.address < e.address := by
  induction t using Tree.induct generalizing trail with
  | h t ih =>
    obtain ⟨kind, span, parts⟩ := t
    rw [placesOf, List.pairwise_cons]
    constructor
    · intro d hd
      obtain ⟨front, role, u, after, -, hd⟩ := mem_placesAmong_iff.1 hd
      obtain ⟨rest, hrest⟩ := exists_address hd
      rw [hrest, address_cons u (.node kind span parts), List.append_assoc]
      exact calc address ⟨.node kind span parts, trail⟩
        _ = address ⟨.node kind span parts, trail⟩ ++ [] := (List.append_nil _).symm
        _ < address ⟨.node kind span parts, trail⟩ ++ _ := List.append_left_lt .nil
    · have hamong : ∀ before, (placesAmong trail kind span before parts).Pairwise
          fun d e => d.address < e.address := by
        rw [Tree.parts] at ih
        induction parts with
        | nil => exact fun before => .nil
        | cons part parts ihparts =>
          intro before
          obtain ⟨role, u⟩ := part
          rw [placesAmong, List.pairwise_append]
          refine ⟨ih (role, u) List.mem_cons_self _,
            ihparts (fun q hq => ih q (List.mem_cons_of_mem _ hq)) _, fun d hd e he => ?_⟩
          obtain ⟨rest, hd⟩ := exists_address hd
          obtain ⟨front, role', u', after, -, he⟩ := mem_placesAmong_iff.1 he
          obtain ⟨rest', he⟩ := exists_address he
          have hlater : before.length < (front.reverse ++ (role, u) :: before).length := by
            rw [List.length_append, List.length_cons]
            omega
          rw [hd, he, address_cons u u, address_cons u' u, List.append_assoc, List.append_assoc]
          exact List.append_left_lt (.rel hlater)
      exact hamong []

theorem pairwise_subtree (c : Cursor) : (c.subtree.map address).Pairwise (· < ·) :=
  List.pairwise_map.2 (pairwise_placesOf c.trail c.focus)

end Cursor

end Java

end Remedy
