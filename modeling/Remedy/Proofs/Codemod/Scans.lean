import Mathlib
import Remedy.Proofs.Codemod.Aims
import Remedy.Proofs.Symbols.Spelling
/-!
# What a scan of a file finds

Two of the codemods for calls scan all files: one for random number
generators that are made without a seed, one for contexts that are asked for
by a weak protocol. Where the type that decides is known to be the right one,
such a call is found unless there is a comment in the way: in the empty list
of arguments of the one, ahead of the literal of the other. A generator is
missed as well where there is white space in the name of its type, though the
symbol table reads that name without it (`Codemod.located_iff`).
-/

namespace Remedy

namespace Codemod

open Java (Tree)
open Outline (stripBlanks)

variable {ctx : CodemodContext} {call call' list list' place place' object tree t : Tree}
variable {span reference : Span} {fullName : String} {site : Site}

/-! ### Calls where the type is known -/

/-- The name at a span stands for a type. -/
def Binds (ctx : CodemodContext) (span : Span) (fullName : String) : Prop :=
  (ctx.symbols.referenceAt? ctx.unit.path span).map Reference.resolution = some (.type fullName)

/-- **A call makes a random number generator** without a seed and without a
body. There may be comments in its list of arguments. -/
structure MakesUnseeded (ctx : CodemodContext) (call list place : Tree) : Prop where
  kind : call.kind = .objectCreationExpression
  bodiless : ∀ c ∈ call.children, c.kind ≠ .classBody
  arguments : call.child? .arguments = some list
  seedless : ∀ a ∈ list.namedChildren, a.kind.isComment
  type : call.child? .type = some place
  random : Binds ctx place.span "java.util.Random"

/-- **A call asks for a context by a weak protocol**: its first argument, after
any comments, is a literal for one. -/
structure AsksWeakly (ctx : CodemodContext) (call list place object : Tree) : Prop where
  kind : call.kind = .methodInvocation
  name : ∃ name, call.child? .name = some name ∧ written ctx name = "getInstance"
  arguments : call.child? .arguments = some list
  first : list.namedChildren.find? (fun a => !a.kind.isComment) = some place
  literal : place.kind = .stringLiteral
  weak : ∃ protocol ∈ weakProtocols, written ctx place = "\"" ++ protocol ++ "\""
  receiver : call.child? .object = some object
  context : Binds ctx object.span "javax.net.ssl.SSLContext"

instance (ctx : CodemodContext) (span : Span) (fullName : String) :
    Decidable (Binds ctx span fullName) :=
  inferInstanceAs (Decidable (_ = _))

/-- Whether a call makes a random number generator without a seed. -/
def makesUnseeded (ctx : CodemodContext) (call : Tree) : Bool :=
  decide (call.kind = .objectCreationExpression) &&
    call.children.all (fun c => decide (c.kind ≠ .classBody)) &&
    (call.child? .arguments).any (fun list => list.namedChildren.all fun a => a.kind.isComment) &&
    (call.child? .type).any fun place => decide (Binds ctx place.span "java.util.Random")

theorem makesUnseeded_iff :
    makesUnseeded ctx call ↔ ∃ list place, MakesUnseeded ctx call list place := by
  simp only [makesUnseeded, Bool.and_eq_true, decide_eq_true_eq, List.all_eq_true,
    Option.any_eq_true]
  constructor
  · rintro ⟨⟨⟨hkind, hbody⟩, list, hlist, hseedless⟩, place, hplace, hrandom⟩
    exact ⟨list, place, hkind, hbody, hlist, hseedless, hplace, hrandom⟩
  · rintro ⟨list, place, h⟩
    exact ⟨⟨⟨h.kind, h.bodiless⟩, list, h.arguments, h.seedless⟩, place, h.type, h.random⟩

/-- Whether a call asks for a context by a weak protocol. -/
def asksWeakly (ctx : CodemodContext) (call : Tree) : Bool :=
  decide (call.kind = .methodInvocation) &&
    (call.child? .name).any (fun name => decide (written ctx name = "getInstance")) &&
    (call.child? .arguments).any (fun list =>
      (list.namedChildren.find? fun a => !a.kind.isComment).any fun place =>
        decide (place.kind = .stringLiteral) &&
          weakProtocols.any fun protocol => decide (written ctx place = "\"" ++ protocol ++ "\"")) &&
    (call.child? .object).any fun object =>
      decide (Binds ctx object.span "javax.net.ssl.SSLContext")

theorem asksWeakly_iff :
    asksWeakly ctx call ↔ ∃ list place object, AsksWeakly ctx call list place object := by
  simp only [asksWeakly, Bool.and_eq_true, decide_eq_true_eq, List.any_eq_true,
    Option.any_eq_true]
  constructor
  · rintro ⟨⟨⟨hkind, hname⟩, list, hlist, place, hfirst, hliteral, hweak⟩, object, hobject, hcontext⟩
    exact ⟨list, place, object, hkind, hname, hlist, hfirst, hliteral, hweak, hobject, hcontext⟩
  · rintro ⟨list, place, object, h⟩
    exact ⟨⟨⟨h.kind, h.name⟩, list, h.arguments, place, h.first, h.literal, h.weak⟩, object,
      h.receiver, h.context⟩

theorem siteNeeding_of_binds (h : Binds ctx reference fullName) :
    siteNeeding ctx span reference fullName = some ⟨span, [reference]⟩ := by
  have hyes : ctx.typeIs reference fullName = .yes := by
    rw [CodemodContext.typeIs, h]
    exact if_pos rfl
  rw [siteNeeding, hyes, if_neg (by decide)]

/-! ### What is located -/

/-- Without a region, all trees of a kind are looked at. -/
theorem mem_treesAt_none {kind : Java.Kind} : t ∈ treesAt ctx none kind ↔
    ∃ tree, ctx.unit.tree? = some tree ∧ t ∈ tree.preorder ∧ t.kind = kind := by
  refine ⟨mem_preorder_of_mem_treesAt, ?_⟩
  rintro ⟨tree, htree, hmem, hkind⟩
  rw [treesAt, htree]
  refine List.mem_filter.2 ⟨?_, ?_⟩
  · rw [Java.foci_descendants]
    exact hmem
  · rw [decide_eq_true hkind, Option.all_none, Bool.and_true]

theorem weakGenerator?_eq_some_iff : weakGenerator? ctx call = some site ↔
    ∃ list place, call.child? .arguments = some list ∧ call.child? .type = some place ∧
      list.namedChildren = [] ∧ (∀ c ∈ call.children, c.kind ≠ .classBody) ∧
      (written ctx place = "Random" ∨ written ctx place = "java.util.Random") ∧
      siteNeeding ctx place.span place.span "java.util.Random" = some site := by
  simp only [weakGenerator?, Option.bind_eq_bind, Option.bind_eq_some_iff]
  constructor
  · rintro ⟨list, hlist, place, hplace, h⟩
    split_ifs at h with hother hname
    rw [not_or] at hother
    rw [not_and_or, not_not, not_not] at hname
    refine ⟨list, place, hlist, hplace, by simpa using hother.1, ?_, hname, h⟩
    simpa using hother.2
  · rintro ⟨list, place, hlist, hplace, hempty, hbody, hname, h⟩
    refine ⟨list, hlist, place, hplace, ?_⟩
    rw [if_neg, if_neg, h]
    · rwa [not_and_or, not_not, not_not]
    · rw [not_or]
      exact ⟨by simp [hempty], by simpa using hbody⟩

theorem weakProtocol?_of_asksForProtocol (h : AsksForProtocol ctx call place object) :
    weakProtocol? ctx call = siteNeeding ctx place.span object.span "javax.net.ssl.SSLContext" := by
  obtain ⟨name, hname, hwritten⟩ := h.name
  obtain ⟨list, hlist, hfirst⟩ := h.argument
  simp only [weakProtocol?, hname, h.receiver, hlist, hfirst, Option.bind_eq_bind,
    Option.bind_some, hwritten, h.literal]
  rw [if_neg (by simp), if_neg]
  simpa using h.weak

/-- A literal for a weak protocol has the protocol between its quotes. -/
theorem AsksWeakly.trim_mem (h : AsksWeakly ctx call list place object) :
    Text.trimWith (· = '"') (written ctx place) ∈ weakProtocols := by
  have htrim : ∀ protocol ∈ weakProtocols,
      Text.trimWith (· = '"') ("\"" ++ protocol ++ "\"") = protocol := by decide +kernel
  obtain ⟨protocol, hweak, hwritten⟩ := h.weak
  rw [hwritten, htrim protocol hweak]
  exact hweak

theorem AsksWeakly.asksForProtocol (h : AsksWeakly ctx call list place object)
    (hfirst : list.namedChildren.head? = some place) : AsksForProtocol ctx call place object :=
  ⟨h.kind, h.name, ⟨list, h.arguments, hfirst⟩, h.literal, h.trim_mem, h.receiver⟩

/-! ### What is found -/

section Scan

variable {before after : List SourceUnit} {root : Tree}

/-- **A type is written by one of its two names** for the generators, which
are all that the scan looks for. -/
def WrittenPlainly (ctx : CodemodContext) (place : Tree) : Prop :=
  written ctx place = "Random" ∨ written ctx place = "java.util.Random"

/-- A name that is bound is written in its file by the full name of the type
or by the last part of it, but for white space. -/
theorem exists_spelling_of_binds (htable : ctx.symbols = .build (before ++ ctx.unit :: after))
    (hlast : ∀ u ∈ after, u.tree?.isSome → ¬ u.path.same ctx.unit.path)
    (htree : ctx.unit.tree? = some root) (hpackaged : Resolution.Packaged fullName)
    (h : Binds ctx t.span fullName) :
    ∃ name, (name = written ctx t ∨ name = stripBlanks (written ctx t)) ∧
      (name = fullName ∨ name = Outline.lastName fullName) := by
  obtain ⟨r, hfound, hresolution⟩ := Option.map_eq_some_iff.1 h
  rw [htable, SymbolTable.referenceAt?] at hfound
  have hspan := List.find?_some hfound
  rw [decide_eq_true_eq] at hspan
  have hmem : r ∈ (SymbolTable.build (before ++ ctx.unit :: after)).references ctx.unit.path :=
    List.mem_of_find?_eq_some hfound
  have ho : SymbolTable.outline? ctx.unit = some (.ofTree ctx.unit.path ctx.unit.text root) := by
    rw [SymbolTable.outline?, htree, Option.map_some]
  rw [SymbolTable.references_of_last hlast ho] at hmem
  obtain ⟨s, -, hwritten⟩ := Reference.exists_writtenAt hmem
  have htext : s.text ctx.unit.text = written ctx t := by
    rw [written, Tree.text, Tree.text, ← hwritten.span, hspan]
  rw [Reference.resolution_of_mem hmem] at hresolution
  exact ⟨r.name, htext ▸ hwritten.name,
    Resolution.eq_or_eq_of_ofName SymbolTable.wellNamed_outlines hpackaged hresolution⟩

/-- A generator in a table of its project is written by one of its names,
unless there is white space in it. -/
theorem writtenPlainly_iff (htable : ctx.symbols = .build (before ++ ctx.unit :: after))
    (hlast : ∀ u ∈ after, u.tree?.isSome → ¬ u.path.same ctx.unit.path)
    (htree : ctx.unit.tree? = some root) (h : Binds ctx place.span "java.util.Random") :
    WrittenPlainly ctx place ↔ stripBlanks (written ctx place) = written ctx place := by
  obtain ⟨name, hwritten, hspelled⟩ := exists_spelling_of_binds htable hlast htree (by decide) h
  have hlastName : Outline.lastName "java.util.Random" = "Random" := by decide
  rw [hlastName, or_comm] at hspelled
  rw [WrittenPlainly]
  constructor
  · rintro (hplain | hplain) <;> rw [hplain] <;> decide
  · intro hplain
    rw [hplain, or_self] at hwritten
    rwa [← hwritten]

/-- **Which generators are found**: those with nothing in their list of
arguments and a type that is written by one of its names. -/
theorem generator_located_iff (htree : ctx.unit.tree? = some root)
    (hregular : root.Regular ctx.unit.text) (hcall : call ∈ root.preorder)
    (h : MakesUnseeded ctx call list place) :
    ⟨place.span, [place.span]⟩ ∈ secureRandom.locate ctx none ↔
      list.namedChildren = [] ∧ WrittenPlainly ctx place := by
  constructor
  · intro hsite
    obtain ⟨call', hcall', hlocated⟩ := List.mem_filterMap.1 hsite
    obtain ⟨tree, htree', hmem', -⟩ := mem_treesAt_none.1 hcall'
    rw [htree, Option.some.injEq] at htree'
    subst htree'
    obtain ⟨list', place', hlist', hplace', hempty, -, hwritten, hneeding⟩ :=
      weakGenerator?_eq_some_iff.1 hlocated
    have hspan : place.span = place'.span := (Site.mk.inj (siteNeeding_eq_some hneeding).1).1
    -- the site is that of this call, as a type and its arguments tell the call
    obtain rfl := hregular.spread.parent_unique hcall hmem' (Tree.mem_parts_of_child? h.type)
      (Tree.mem_parts_of_child? hplace') (Tree.mem_parts_of_child? h.arguments)
      (Tree.mem_parts_of_child? hlist') (Tree.part_ne (by decide)) (Tree.part_ne (by decide)) hspan
    obtain rfl := Option.some.inj (h.arguments.symm.trans hlist')
    obtain rfl := Option.some.inj (h.type.symm.trans hplace')
    exact ⟨hempty, hwritten⟩
  · rintro ⟨hempty, hwritten⟩
    refine List.mem_filterMap.2 ⟨call, mem_treesAt_none.2 ⟨root, htree, hcall, h.kind⟩, ?_⟩
    exact weakGenerator?_eq_some_iff.2 ⟨list, place, h.arguments, h.type, hempty, h.bodiless,
      hwritten, siteNeeding_of_binds h.random⟩

/-- **Which contexts are found**: those whose literal has no comment ahead of
it. -/
theorem context_located_iff (htree : ctx.unit.tree? = some root)
    (hregular : root.Regular ctx.unit.text) (hcall : call ∈ root.preorder)
    (h : AsksWeakly ctx call list place object) :
    ⟨place.span, [object.span]⟩ ∈ safeContext.locate ctx none ↔
      list.namedChildren.head? = some place := by
  constructor
  · intro hsite
    obtain ⟨call', hcall', hlocated⟩ := List.mem_filterMap.1 hsite
    obtain ⟨tree, htree', hmem', hkind'⟩ := mem_treesAt_none.1 hcall'
    rw [htree, Option.some.injEq] at htree'
    subst htree'
    obtain ⟨place', object', hasks, heq, -⟩ := asksForProtocol_of_weakProtocol? hkind' hlocated
    have hspan : place.span = place'.span := (Site.mk.inj heq).1
    obtain ⟨list', hlist', hfirst'⟩ := hasks.argument
    obtain ⟨role', hplace'⟩ := mem_children_of_namedChildren hfirst'
    obtain ⟨⟨role, _⟩, hplace, rfl⟩ :=
      List.mem_map.1 (List.mem_of_mem_filter (List.mem_of_find?_eq_some h.first))
    have hbelow := Tree.preorder_trans (Tree.mem_preorder_of_child? h.arguments
      (Tree.mem_preorder_of_part hplace (Tree.mem_preorder_self _))) hcall
    have hbelow' := Tree.preorder_trans (Tree.mem_preorder_of_child? hlist'
      (Tree.mem_preorder_of_part hplace' place'.mem_preorder_self)) hmem'
    have hbytes := hasks.start_lt_stop
    rw [← hspan] at hbytes
    obtain rfl := hregular.literals _ hbelow _ hbelow' h.literal hasks.literal hspan
    obtain ⟨rfl, -⟩ := unique_of_argument hregular.spread.laidOut hcall hmem' h.arguments hlist'
      hplace hplace' hbytes
    exact hfirst'
  · intro hfirst
    refine List.mem_filterMap.2 ⟨call, mem_treesAt_none.2 ⟨root, htree, hcall, h.kind⟩, ?_⟩
    rw [weakProtocol?_of_asksForProtocol (h.asksForProtocol hfirst), siteNeeding_of_binds h.context]

/-- **What a scan finds of the calls whose type is known** in a regular tree,
whatever the table of symbols is. A random number generator without a seed is
found if and only if its list of arguments has no comment and its type is
written by one of its names. In a table of the project the type always is,
unless there is white space in it; as a table has the references of the last
file at a path, this is about a file that no other one follows at its path. A
context that is asked for by a weak protocol is found if and only if no
comment stands ahead of the literal, whatever is written around the dots of
its receiver. -/
theorem located_iff (htree : ctx.unit.tree? = some root)
    (hregular : root.Regular ctx.unit.text) :
    (∀ call ∈ root.preorder, ∀ list place, MakesUnseeded ctx call list place →
      (⟨place.span, [place.span]⟩ ∈ secureRandom.locate ctx none ↔
        list.namedChildren = [] ∧ WrittenPlainly ctx place)) ∧
    (∀ before after, ctx.symbols = .build (before ++ ctx.unit :: after) →
      (∀ u ∈ after, u.tree?.isSome → ¬ u.path.same ctx.unit.path) →
      ∀ place : Tree, Binds ctx place.span "java.util.Random" →
        (WrittenPlainly ctx place ↔ stripBlanks (written ctx place) = written ctx place)) ∧
    ∀ call ∈ root.preorder, ∀ list place object, AsksWeakly ctx call list place object →
      (⟨place.span, [object.span]⟩ ∈ safeContext.locate ctx none ↔
        list.namedChildren.head? = some place) := by
  refine ⟨?_, ?_, ?_⟩
  · intro call hcall list place h
    exact generator_located_iff htree hregular hcall h
  · intro before after htable hlast place h
    exact writtenPlainly_iff htable hlast htree h
  · intro call hcall list place object h
    exact context_located_iff htree hregular hcall h

end Scan

/-- What the codemods see of a file that is alone in its project. -/
def alone (unit : SourceUnit) : CodemodContext := ⟨unit, .build [unit]⟩

/-- A file that makes a generator, with white space in the name of the
type, -/
def spacedGenerator : SourceUnit := .ofJava "A.java" "class A\x7b\x7bnew java . util.Random();\x7d\x7d"

/-- one that makes a generator with a comment for an argument, -/
def remarkedGenerator : SourceUnit :=
  .ofJava "A.java" "class A\x7b\x7bnew java.util.Random(/* none */);\x7d\x7d"

/-- and one that asks for a context, with white space in the name of the
type. -/
def spacedContext : SourceUnit := .ofJava "A.java"
  "class A\x7b\x7bjavax . net.ssl.SSLContext.getInstance(\"SSL\");\x7d\x7d"

/-- A call of either kind has a known type, and it is told if it is found. -/
theorem located_iff_spaced :
    (∃ root, spacedGenerator.tree? = some root ∧ ∃ call ∈ root.preorder, ∃ list place,
      MakesUnseeded (alone spacedGenerator) call list place ∧
      (⟨place.span, [place.span]⟩ ∈ secureRandom.locate (alone spacedGenerator) none ↔
        list.namedChildren = [] ∧ stripBlanks (written (alone spacedGenerator) place) =
          written (alone spacedGenerator) place)) ∧
    ∃ root, spacedContext.tree? = some root ∧ ∃ call ∈ root.preorder, ∃ list place object,
      AsksWeakly (alone spacedContext) call list place object ∧
      (⟨place.span, [object.span]⟩ ∈ safeContext.locate (alone spacedContext) none ↔
        list.namedChildren.head? = some place) := by
  constructor
  · have hfound : spacedGenerator.tree?.any fun root =>
        root.preorder.any (makesUnseeded (alone spacedGenerator)) := by decide +kernel
    obtain ⟨root, htree, hcalls⟩ := (Option.any_eq_true _ _).1 hfound
    obtain ⟨call, hcall, hmakes⟩ := List.any_eq_true.1 hcalls
    obtain ⟨list, place, hmakes⟩ := makesUnseeded_iff.1 hmakes
    obtain ⟨hgenerator, hplain, -⟩ := @located_iff (alone spacedGenerator) root htree
      (SourceUnit.regular_of_ofJava htree)
    refine ⟨root, htree, call, hcall, list, place, hmakes, ?_⟩
    rw [hgenerator call hcall list place hmakes,
      hplain [] [] rfl (fun _ hu => by cases hu) place hmakes.random]
  · have hfound : spacedContext.tree?.any fun root =>
        root.preorder.any (asksWeakly (alone spacedContext)) := by decide +kernel
    obtain ⟨root, htree, hcalls⟩ := (Option.any_eq_true _ _).1 hfound
    obtain ⟨call, hcall, hasks⟩ := List.any_eq_true.1 hcalls
    obtain ⟨list, place, object, hasks⟩ := asksWeakly_iff.1 hasks
    obtain ⟨-, -, hcontext⟩ := @located_iff (alone spacedContext) root htree
      (SourceUnit.regular_of_ofJava htree)
    exact ⟨root, htree, call, hcall, list, place, object, hasks,
      hcontext call hcall list place object hasks⟩

/-- A scan finds all calls of both kinds whose type is known. -/
def ScansAll (ctx : CodemodContext) : Prop :=
  ∀ root, ctx.unit.tree? = some root → ∀ call ∈ root.preorder,
    (∀ list place, MakesUnseeded ctx call list place →
      ⟨place.span, [place.span]⟩ ∈ secureRandom.locate ctx none) ∧
    ∀ list place object, AsksWeakly ctx call list place object →
      ⟨place.span, [object.span]⟩ ∈ safeContext.locate ctx none

/-- The generator is not found, though its type is known. -/
theorem not_scansAll_remarkedGenerator : ¬ ScansAll (alone remarkedGenerator) := by
  intro hscans
  -- one fact, so that the text is read once
  have hfacts : secureRandom.locate (alone remarkedGenerator) none = [] ∧
      remarkedGenerator.tree?.any fun root =>
        root.preorder.any (makesUnseeded (alone remarkedGenerator)) := by decide +kernel
  obtain ⟨hnone, hfound⟩ := hfacts
  obtain ⟨root, htree, hcalls⟩ := (Option.any_eq_true _ _).1 hfound
  obtain ⟨call, hcall, hmakes⟩ := List.any_eq_true.1 hcalls
  obtain ⟨list, place, hmakes⟩ := makesUnseeded_iff.1 hmakes
  have hsite := (hscans root htree call hcall).1 list place hmakes
  rw [hnone] at hsite
  cases hsite

end Codemod

end Remedy
