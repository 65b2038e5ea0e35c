import Mathlib
import Remedy.Codemod.BuiltIn
import Remedy.Proofs.Java.Regular
import Remedy.Proofs.Java.Walk
/-!
# What the codemods for calls aim at

Each of the codemods for calls in Java rewrites one place of a call, on
condition that one type name in the call stands for a certain type. An `Aim`
says which call, which place and which name. A site that is located is aimed
at (`Aim.exists_at_of_mem_locate`). In the tree of a text a place belongs to
one call only, so that its span tells the name that the site depends on
(`Aim.span_unique`).
-/

namespace Remedy

namespace Codemod

open Java (Tree)

variable {ctx : CodemodContext} {t call call' place place' name name' : Tree}

/-! ## Calls, places and names -/

/-- The call makes a random number generator of a named type. -/
structure MakesGenerator (call place : Tree) : Prop where
  kind : call.kind = .objectCreationExpression
  type : call.child? .type = some place

/-- The call is `getInstance` with a literal for a weak protocol as its
first argument. -/
structure AsksForProtocol (ctx : CodemodContext) (call place receiver : Tree) : Prop where
  kind : call.kind = .methodInvocation
  name : ∃ name, call.child? .name = some name ∧ written ctx name = "getInstance"
  argument : ∃ arguments, call.child? .arguments = some arguments ∧
    arguments.namedChildren.head? = some place
  literal : place.kind = .stringLiteral
  weak : Text.trimWith (· = '"') (written ctx place) ∈ weakProtocols
  receiver : call.child? .object = some receiver

/-- A chain of calls that starts at a name by `parser` or `parserBuilder`
is what a call is made on. -/
inductive ParserChain (ctx : CodemodContext) : Tree → Tree → Prop
  /-- The chain is that first call alone. -/
  | first {call object name root : Tree} : call.child? .object = some object →
      object.kind = .methodInvocation → object.child? .name = some name →
      written ctx name = "parser" ∨ written ctx name = "parserBuilder" →
      object.child? .object = some root → root.kind = .identifier ∨ root.kind = .fieldAccess →
      ParserChain ctx call root
  /-- The chain goes on with another call. -/
  | next {call object root : Tree} : call.child? .object = some object →
      object.kind = .methodInvocation → ParserChain ctx object root → ParserChain ctx call root

/-- The call is `parse` on a parser, which is had from a name. -/
structure ParsesToken (ctx : CodemodContext) (call place root : Tree) : Prop where
  kind : call.kind = .methodInvocation
  name : call.child? .name = some place
  parse : written ctx place = "parse"
  chain : ParserChain ctx call root

/-- **What a codemod aims at**: a place in a call, where a name in the call
stands for a type. -/
structure Aim where
  codemod : Codemod
  fullName : String
  At : CodemodContext → Tree → Tree → Tree → Prop

/-- A place in the file and a name are those of a call that is aimed at. -/
def Aim.InFile (aim : Aim) (ctx : CodemodContext) (place name : Tree) : Prop :=
  ∃ tree call, ctx.unit.tree? = some tree ∧ call ∈ tree.preorder ∧ aim.At ctx call place name

/-- The type of a random number generator. -/
def Aim.generator : Aim where
  codemod := secureRandom
  fullName := "java.util.Random"
  At _ call place name := MakesGenerator call place ∧ name = place

/-- The protocol of a context. -/
def Aim.protocol : Aim where
  codemod := safeContext
  fullName := "javax.net.ssl.SSLContext"
  At := AsksForProtocol

/-- The method by which a token is parsed. -/
def Aim.token : Aim where
  codemod := checkedParse
  fullName := "io.jsonwebtoken.Jwts"
  At := ParsesToken

/-- **The aims of the codemods for calls.** -/
def aims : List Aim := [.generator, .protocol, .token]

/-! ## What is located -/

theorem siteNeeding_eq_some {span reference : Span} {fullName : String} {site : Site}
    (h : siteNeeding ctx span reference fullName = some site) :
    site = ⟨span, [reference]⟩ ∧ ctx.typeIs reference fullName ≠ .no := by
  rw [siteNeeding] at h
  split at h
  · cases h
  · next hmay => exact ⟨(Option.some.inj h).symm, hmay⟩

/-- The trees of a kind are among all trees of the file. -/
theorem mem_preorder_of_mem_treesAt {region : Option Span} {kind : Java.Kind}
    (h : t ∈ treesAt ctx region kind) :
    ∃ tree, ctx.unit.tree? = some tree ∧ t ∈ tree.preorder ∧ t.kind = kind := by
  rw [treesAt] at h
  split at h
  · cases h
  · next tree htree =>
    obtain ⟨hmem, hkind⟩ := List.mem_filter.1 h
    rw [Java.foci_descendants] at hmem
    rw [Bool.and_eq_true, decide_eq_true_eq] at hkind
    exact ⟨tree, htree, hmem, hkind.1⟩

theorem makesGenerator_of_weakGenerator? {site : Site}
    (hkind : call.kind = .objectCreationExpression)
    (h : weakGenerator? ctx call = some site) : ∃ place, MakesGenerator call place ∧
      site = ⟨place.span, [place.span]⟩ ∧ ctx.typeIs place.span "java.util.Random" ≠ .no := by
  simp only [weakGenerator?, Option.bind_eq_bind, Option.bind_eq_some_iff] at h
  obtain ⟨arguments, -, type, htype, h⟩ := h
  split_ifs at h
  exact ⟨type, ⟨hkind, htype⟩, siteNeeding_eq_some h⟩

theorem asksForProtocol_of_weakProtocol? {site : Site} (hkind : call.kind = .methodInvocation)
    (h : weakProtocol? ctx call = some site) : ∃ place receiver,
      AsksForProtocol ctx call place receiver ∧ site = ⟨place.span, [receiver.span]⟩ ∧
        ctx.typeIs receiver.span "javax.net.ssl.SSLContext" ≠ .no := by
  simp only [weakProtocol?, Option.bind_eq_bind, Option.bind_eq_some_iff] at h
  obtain ⟨name, hname, receiver, hreceiver, arguments, harguments, place, hplace, h⟩ := h
  split_ifs at h with hother hstrong
  rw [not_or, not_not, not_not] at hother
  refine ⟨place, receiver, ⟨hkind, ⟨name, hname, hother.1⟩, ⟨arguments, harguments, hplace⟩,
    hother.2, ?_, hreceiver⟩, siteNeeding_eq_some h⟩
  simpa using hstrong

theorem parserChain_of_parserRoot? {root : Tree} {fuel : Nat}
    (h : parserRoot? ctx fuel call = some root) : ParserChain ctx call root := by
  induction fuel generalizing call with
  | zero => cases h
  | succ fuel ih =>
    simp only [parserRoot?, Option.bind_eq_bind, Option.bind_eq_some_iff] at h
    obtain ⟨object, hobject, h⟩ := h
    split at h
    · cases h
    · next hcall =>
      rw [not_not] at hcall
      obtain ⟨inner, hinner, h⟩ := Option.bind_eq_some_iff.1 h
      split at h
      · next hfirst =>
        obtain ⟨hname, hroot⟩ := hfirst
        cases h
        simp only [Option.map_eq_some_iff, ← exists_or, ← and_or_left] at hname
        obtain ⟨name, hname, hwritten⟩ := hname
        exact .first hobject hcall hname hwritten hinner hroot
      · exact .next hobject hcall (ih h)

theorem parsesToken_of_uncheckedParse? {site : Site} (hkind : call.kind = .methodInvocation)
    (h : uncheckedParse? ctx call = some site) : ∃ place root, ParsesToken ctx call place root ∧
      site = ⟨place.span, [root.span]⟩ ∧ ctx.typeIs root.span "io.jsonwebtoken.Jwts" ≠ .no := by
  simp only [uncheckedParse?, Option.bind_eq_bind, Option.bind_eq_some_iff] at h
  obtain ⟨place, hplace, root, hroot, h⟩ := h
  split_ifs at h with hother
  exact ⟨place, root, ⟨hkind, hplace, not_not.1 hother, parserChain_of_parserRoot? hroot⟩,
    siteNeeding_eq_some h⟩

namespace Aim

variable {aim : Aim}

/-- **A located site is aimed at**: its span is that of the place, and it
needs the name, which is not known to stand for another type. -/
theorem exists_at_of_mem_locate (haim : aim ∈ aims) {region : Option Span} {site : Site}
    (h : site ∈ aim.codemod.locate ctx region) :
    ∃ place name, aim.InFile ctx place name ∧ site = ⟨place.span, [name.span]⟩ ∧
      ctx.typeIs name.span aim.fullName ≠ .no := by
  simp only [aims, List.mem_cons, List.not_mem_nil, or_false] at haim
  rcases haim with rfl | rfl | rfl
  case inl =>
    obtain ⟨call, hcall, hsite⟩ := List.mem_filterMap.1 h
    obtain ⟨tree, htree, hmem, hkind⟩ := mem_preorder_of_mem_treesAt hcall
    obtain ⟨place, hat, hspan, hmay⟩ := makesGenerator_of_weakGenerator? hkind hsite
    exact ⟨place, place, ⟨tree, call, htree, hmem, hat, rfl⟩, hspan, hmay⟩
  case inr.inl =>
    obtain ⟨call, hcall, hsite⟩ := List.mem_filterMap.1 h
    obtain ⟨tree, htree, hmem, hkind⟩ := mem_preorder_of_mem_treesAt hcall
    obtain ⟨place, name, hat, hsite⟩ := asksForProtocol_of_weakProtocol? hkind hsite
    exact ⟨place, name, ⟨tree, call, htree, hmem, hat⟩, hsite⟩
  case inr.inr =>
    obtain ⟨call, hcall, hsite⟩ := List.mem_filterMap.1 h
    obtain ⟨tree, htree, hmem, hkind⟩ := mem_preorder_of_mem_treesAt hcall
    obtain ⟨place, name, hat, hsite⟩ := parsesToken_of_uncheckedParse? hkind hsite
    exact ⟨place, name, ⟨tree, call, htree, hmem, hat⟩, hsite⟩

/-- The site itself is rewritten. -/
theorem span_of_apply (haim : aim ∈ aims) {site : Site} {r : Replacement}
    (h : aim.codemod.apply ctx site = .ok r) : r.span = site.span := by
  simp only [aims, List.mem_cons, List.not_mem_nil, or_false] at haim
  rcases haim with rfl | rfl | rfl
  · cases h
    rfl
  · cases h
    rfl
  · simp only [Aim.token, checkedParse] at h
    split_ifs at h
    cases h
    rfl

theorem needsResolution (haim : aim ∈ aims) : aim.codemod.needsResolution := by
  simp only [aims, List.mem_cons, List.not_mem_nil, or_false] at haim
  rcases haim with rfl | rfl | rfl <;> rfl

end Aim

/-! ## One call for a place -/

theorem mem_children_of_namedChildren (h : call.namedChildren.head? = some t) :
    ∃ role, (role, t) ∈ call.parts := by
  have hmem := List.mem_of_mem_filter (List.mem_of_mem_head? h)
  obtain ⟨⟨role, u⟩, hpart, rfl⟩ := List.mem_map.1 hmem
  exact ⟨role, hpart⟩

/-- What is written with characters covers a byte. -/
theorem start_lt_stop_of_written (ctx : CodemodContext) (h : written ctx t ≠ "") :
    t.span.start < t.span.stop := by
  rw [written, Tree.text] at h
  cases hslice : Text.slice? ctx.unit.text t.span with
  | none =>
    rw [hslice] at h
    exact absurd rfl h
  | some piece =>
    rw [hslice, Option.getD_some] at h
    obtain ⟨before, after, -, hspan⟩ := Text.slice?_eq_some_iff.1 hslice
    have hsize : piece.utf8ByteSize ≠ 0 := fun hzero =>
      h (String.utf8ByteSize_eq_zero_iff.1 hzero)
    rw [hspan]
    exact Nat.lt_add_of_pos_right (Nat.pos_of_ne_zero hsize)

theorem AsksForProtocol.start_lt_stop (h : AsksForProtocol ctx call place name) :
    place.span.start < place.span.stop := by
  refine start_lt_stop_of_written ctx fun hempty => ?_
  have hweak := h.weak
  rw [hempty] at hweak
  exact absurd hweak (by decide)

/-- **An argument is one of one call only.** -/
theorem unique_of_argument {tree arguments arguments' : Tree} {role role' : Option Java.Role}
    (hlaid : tree.LaidOut) (hcall : call ∈ tree.preorder) (hcall' : call' ∈ tree.preorder)
    (harguments : call.child? .arguments = some arguments)
    (harguments' : call'.child? .arguments = some arguments')
    (hplace : (role, place) ∈ arguments.parts) (hplace' : (role', place) ∈ arguments'.parts)
    (hbytes : place.span.start < place.span.stop) : arguments = arguments' ∧ call = call' := by
  have hlist := Tree.mem_preorder_of_child? harguments arguments.mem_preorder_self
  have hlist' := Tree.mem_preorder_of_child? harguments' arguments'.mem_preorder_self
  have hin := Tree.preorder_trans hlist hcall
  obtain rfl := hlaid.parent_unique hin (Tree.preorder_trans hlist' hcall') hplace hplace' hbytes
  have hwithin := (hlaid.of_mem hin).child_within hplace
  dsimp only at hwithin
  exact ⟨rfl, hlaid.parent_unique hcall hcall' (Tree.mem_parts_of_child? harguments)
    (Tree.mem_parts_of_child? harguments') (by omega)⟩

/-- A chain of calls is made on something. -/
theorem ParserChain.exists_object {root : Tree} (h : ParserChain ctx call root) :
    ∃ object, call.child? .object = some object := by
  cases h with
  | first hobject | next hobject => exact ⟨_, hobject⟩

section Unique

variable {text : String} {tree : Tree} (hregular : tree.Regular text)
variable (hcall : call ∈ tree.preorder) (hcall' : call' ∈ tree.preorder)
include hregular hcall hcall'

/-- **A literal is the first argument of one call only.** -/
theorem AsksForProtocol.unique (h : AsksForProtocol ctx call place name)
    (h' : AsksForProtocol ctx call' place' name') (hspan : place.span = place'.span) :
    call = call' := by
  have hlaid := hregular.spread.laidOut
  obtain ⟨arguments, harguments, hfirst⟩ := h.argument
  obtain ⟨arguments', harguments', hfirst'⟩ := h'.argument
  obtain ⟨role, hplace⟩ := mem_children_of_namedChildren hfirst
  obtain ⟨role', hplace'⟩ := mem_children_of_namedChildren hfirst'
  have hbelow := Tree.preorder_trans (Tree.mem_preorder_of_child? harguments
    (Tree.mem_preorder_of_part hplace place.mem_preorder_self)) hcall
  have hbelow' := Tree.preorder_trans (Tree.mem_preorder_of_child? harguments'
    (Tree.mem_preorder_of_part hplace' place'.mem_preorder_self)) hcall'
  obtain rfl := hregular.literals _ hbelow _ hbelow' h.literal h'.literal hspan
  exact (unique_of_argument hlaid hcall hcall' harguments harguments' hplace hplace'
    h.start_lt_stop).2

/-- **A name is that of one call only**, if the call is made on
something. -/
theorem ParsesToken.unique (h : ParsesToken ctx call place name)
    (h' : ParsesToken ctx call' place' name') (hspan : place.span = place'.span) :
    call = call' := by
  obtain ⟨object, hobject⟩ := h.chain.exists_object
  obtain ⟨object', hobject'⟩ := h'.chain.exists_object
  exact hregular.spread.parent_unique hcall hcall' (Tree.mem_parts_of_child? h.name)
    (Tree.mem_parts_of_child? h'.name) (Tree.mem_parts_of_child? hobject)
    (Tree.mem_parts_of_child? hobject') (Tree.part_ne (by decide)) (Tree.part_ne (by decide)) hspan

end Unique

/-- What a chain of calls is the object of is a call itself. -/
theorem ParserChain.kind_object {object root : Tree} (h : ParserChain ctx call root)
    (hobject : call.child? .object = some object) : object.kind = .methodInvocation := by
  cases h with
  | first hfirst hkind => rwa [← Option.some.inj (hfirst.symm.trans hobject)]
  | next hnext hkind => rwa [← Option.some.inj (hnext.symm.trans hobject)]

/-- A chain of calls starts at one name. -/
theorem ParserChain.unique {root root' : Tree} (h : ParserChain ctx call root)
    (h' : ParserChain ctx call root') : root = root' := by
  induction h with
  | first hobject _ _ _ hroot hkind =>
    cases h' with
    | first hobject' _ _ _ hroot' =>
      obtain rfl := Option.some.inj (hobject.symm.trans hobject')
      exact Option.some.inj (hroot.symm.trans hroot')
    | next hobject' _ hchain' =>
      obtain rfl := Option.some.inj (hobject.symm.trans hobject')
      rw [hchain'.kind_object hroot] at hkind
      exact absurd hkind (by decide)
  | next hobject _ hchain ih =>
    cases h' with
    | first hobject' _ _ _ hroot' hkind' =>
      obtain rfl := Option.some.inj (hobject.symm.trans hobject')
      rw [hchain.kind_object hroot'] at hkind'
      exact absurd hkind' (by decide)
    | next hobject' _ hchain' =>
      obtain rfl := Option.some.inj (hobject.symm.trans hobject')
      exact ih hchain'

/-- **In a regular tree a place tells the name it depends on.** -/
theorem Aim.span_unique {aim : Aim} (haim : aim ∈ aims)
    (hregular : ∀ tree, ctx.unit.tree? = some tree → tree.Regular ctx.unit.text)
    (h : aim.InFile ctx place name) (h' : aim.InFile ctx place' name')
    (hspan : place.span = place'.span) : name.span = name'.span := by
  obtain ⟨tree, call, htree, hcall, h⟩ := h
  obtain ⟨tree', call', htree', hcall', h'⟩ := h'
  obtain rfl := Option.some.inj (htree.symm.trans htree')
  have hregular := hregular tree htree
  simp only [aims, List.mem_cons, List.not_mem_nil, or_false] at haim
  rcases haim with rfl | rfl | rfl
  case inl => rw [h.2, h'.2, hspan]
  case inr.inl =>
    obtain rfl := AsksForProtocol.unique hregular hcall hcall' h h' hspan
    rw [Option.some.inj (h.receiver.symm.trans h'.receiver)]
  case inr.inr =>
    obtain rfl := ParsesToken.unique hregular hcall hcall' h h' hspan
    rw [h.chain.unique h'.chain]

end Codemod

end Remedy
