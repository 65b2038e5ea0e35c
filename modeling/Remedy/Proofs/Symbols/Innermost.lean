import Mathlib
import Remedy.Proofs.Symbols.Members
import Remedy.Proofs.Symbols.Uses
/-!
# The innermost type around a name

The types of a file that stand around a name and have a member type of that
name are nested, so one of them is innermost (`Around.exists_innermost`), and
it is the shortest of them too. Its member type is what the name stands for,
whatever the rest of the project says
(`SymbolTable.resolution_of_memberType`): the lookup takes the shortest scope
around the name. There is one exception. A top-level type that covers the
file from its first byte to its last has a scope as long as that of the
file itself, and if it has a member type of its own name, the name stands for
the type and not for the member.
-/

namespace Remedy

namespace Outline

open Java (Tree Parts)

variable {source above package simple fullName fullName' name name' : String} {place : Span}
variable {root t s s' e e' u body : Tree} {parts : Parts}

/-! ### Types are nested -/

/-- **Of types that stand among the same members none is in another.** -/
theorem StandsFor.eq_of_mem (ht : t.Spread) (h : StandsFor t s) (h' : StandsFor t s')
    (hin : s' ∈ s.preorder) : s' = s := by
  induction h with
  | self htype => exact h'.eq_of_isType htype
  | behind hkind hpart h ih =>
    cases h' with
    | self htype =>
      rw [Tree.isType, hkind] at htype
      cases htype
    | behind _ hpart' h' =>
      have hbytes := ht.covers s' (Tree.mem_preorderParts.2 ⟨_, hpart', h'.mem⟩)
      obtain rfl := ht.laidOut.eq_of_mem_both hpart hpart' (Tree.preorder_trans hin h.mem) h'.mem
        hbytes
      exact ih (ht.child hpart) h' hin

theorem Member.eq_of_mem (ht : t.Spread) (h : Member source t.parts s name)
    (h' : Member source t.parts s' name') (hin : s' ∈ s.preorder) : s' = s := by
  obtain ⟨part, hpart, hs⟩ := h.among
  obtain ⟨part', hpart', hs'⟩ := h'.among
  obtain rfl := ht.laidOut.eq_of_mem_both hpart hpart' (Tree.preorder_trans hin hs.mem) hs'.mem
    (ht.covers s' h'.mem)
  exact hs.eq_of_mem (ht.child hpart) hs' hin

theorem Member.eq_of_contains (ht : t.Spread) (h : Member source t.parts s name)
    (h' : Member source t.parts s' name') (hbytes : place.start < place.stop)
    (hs : s.span.contains place) (hs' : s'.span.contains place) : s = s' := by
  rcases ht.laidOut.mem_or_mem_of_contains (Tree.mem_preorder_of_preorderParts h.mem)
    (Tree.mem_preorder_of_preorderParts h'.mem) hbytes hs hs' with hin | hin
  · exact h'.eq_of_mem ht h hin
  · exact (h.eq_of_mem ht h' hin).symm

/-- A named tree is longer than what is in its body. -/
theorem length_lt_of_body (ht : t.Spread) (hname : (t.child? .name).map (·.text source) = some name)
    (hbody : t.child? .body = some body) (hs : s ∈ body.preorder) :
    s.span.length < t.span.length := by
  obtain ⟨n, hn, -⟩ := Option.map_eq_some_iff.1 hname
  exact ht.length_lt_of_part (Tree.mem_parts_of_child? hbody) (Tree.mem_parts_of_child? hn)
    (Tree.part_ne (by decide)) hs

theorem Declared.mem_preorder (h : Declared source above t.parts e fullName) : e ∈ t.preorder :=
  Tree.mem_preorder_of_preorderParts h.mem

/-- A member is in no body of a member. -/
theorem Member.not_mem_body (ht : t.Spread) (h : Member source t.parts e name)
    (h' : Member source t.parts s name') (hbody : s.child? .body = some body) :
    e ∉ body.preorder := by
  intro hin
  obtain rfl := h'.eq_of_mem ht h (Tree.mem_preorder_of_child? hbody hin)
  have hlt := length_lt_of_body (ht.of_mem (Tree.mem_preorder_of_preorderParts h.mem)) h'.name
    hbody hin
  omega

/-- **A type of the file has one full name.** -/
theorem Declared.fullName_unique (ht : t.Spread) (h : Declared source above t.parts e fullName)
    (h' : Declared source above t.parts e fullName') : fullName = fullName' := by
  generalize hparts : t.parts = parts at h h'
  induction h generalizing t with
  | here hmember =>
    subst hparts
    cases h' with
    | here hmember' => rw [Option.some.inj (hmember.name.symm.trans hmember'.name)]
    | inside hmember' hbody' h' =>
      exact absurd h'.mem_preorder (hmember.not_mem_body ht hmember' hbody')
  | @inside _ _ s body e _ _ hmember hbody h ih =>
    subst hparts
    cases h' with
    | here hmember' => exact absurd h.mem_preorder (hmember'.not_mem_body ht hmember hbody)
    | inside hmember' hbody' h' =>
      have hin := Tree.mem_preorder_of_child? hbody h.mem_preorder
      have hin' := Tree.mem_preorder_of_child? hbody' h'.mem_preorder
      have hbelow := Tree.mem_preorder_of_preorderParts hmember.mem
      have hbelow' := Tree.mem_preorder_of_preorderParts hmember'.mem
      obtain rfl := hmember.eq_of_contains ht hmember'
        (ht.covers _ (Tree.preorderParts_trans hin hmember.mem))
        ((ht.of_mem hbelow).laidOut.contains hin) ((ht.of_mem hbelow').laidOut.contains hin')
      obtain rfl := Option.some.inj (hbody.symm.trans hbody')
      obtain rfl := Option.some.inj (hmember.name.symm.trans hmember'.name)
      exact ih (ht.of_mem (Tree.preorder_trans
        (Tree.mem_preorder_of_child? hbody body.mem_preorder_self) hbelow)) rfl h'

theorem Declared.exists_name (h : Declared source above parts e fullName) :
    ∃ name, (e.child? .name).map (·.text source) = some name := by
  induction h with
  | here hmember => exact ⟨_, hmember.name⟩
  | inside _ _ _ ih => exact ih

/-- A name below another one is longer. -/
theorem joinNames_ne (h : above ≠ "") : joinNames above name ≠ name := by
  rw [joinNames, if_neg (mt String.isEmpty_iff.1 h)]
  intro heq
  have hlength := congrArg String.length heq
  simp only [String.length_append] at hlength
  have hpoint : ".".length = 1 := rfl
  omega

/-- Types that have names have full names. -/
theorem Declared.fullName_ne_empty (h : Declared source above parts e fullName)
    (hnamed : ∀ t ∈ Tree.preorderParts parts, (t.child? .name).map (·.text source) ≠ some "") :
    fullName ≠ "" := by
  induction h with
  | @here above _ _ name hmember =>
    intro hempty
    rw [joinNames] at hempty
    split at hempty
    · exact hnamed _ hmember.mem (hempty ▸ hmember.name)
    · simp at hempty
  | inside hmember hbody _ ih =>
    refine ih fun t ht => hnamed t (Tree.preorderParts_trans ?_ hmember.mem)
    exact Tree.mem_preorder_of_child? hbody (Tree.mem_preorder_of_preorderParts ht)

/-! ### Types around a place -/

/-- **A type of the file around a place, with a member type of a name.** The
full name is that of the type. -/
structure Around (source package : String) (root : Tree) (name : String) (place : Span)
    (e : Tree) (fullName : String) : Prop where
  declared : Declared source package root.parts e fullName
  contains : e.span.contains place
  member : HasMember source e name

/-- **The innermost of the types around a place** that have a member type of a
name: it is in each of them. -/
structure Innermost (source package : String) (root : Tree) (name : String) (place : Span)
    (e : Tree) (fullName : String) : Prop extends
    Around source package root name place e fullName where
  inner : ∀ e' fullName', Around source package root name place e' fullName' → e ∈ e'.preorder

theorem Around.mem (h : Around source package root name place e fullName) : e ∈ root.preorder :=
  h.declared.mem_preorder

/-- A type is longer than another type in it. -/
theorem Around.length_lt (hroot : root.Spread)
    (h : Around source package root name place e fullName) (hs : s ∈ e.preorder) (hne : s ≠ e) :
    s.span.length < e.span.length := by
  obtain ⟨_, hname⟩ := h.declared.exists_name
  obtain ⟨n, hn, -⟩ := Option.map_eq_some_iff.1 hname
  obtain ⟨body, hbody, -⟩ := h.member
  exact (hroot.of_mem h.mem).length_lt (Tree.mem_parts_of_child? hbody)
    (Tree.mem_parts_of_child? hn) (Tree.part_ne (by decide)) hs hne

/-- **One of the types around a place is innermost**, if there is any. -/
theorem Around.exists_innermost (hroot : root.Spread) (hplace : place.start < place.stop)
    (h : Around source package root name place e fullName) :
    ∃ e fullName, Innermost source package root name place e fullName := by
  induction hlength : e.span.length using Nat.strong_induction_on generalizing e fullName with
  | h n ih =>
    by_cases hinner : ∀ e' fullName', Around source package root name place e' fullName' →
        e ∈ e'.preorder
    · exact ⟨e, fullName, h, hinner⟩
    · push Not at hinner
      obtain ⟨e', fullName', h', hout⟩ := hinner
      have hin := (hroot.laidOut.mem_or_mem_of_contains h.mem h'.mem hplace h.contains
        h'.contains).resolve_left hout
      have hne : e' ≠ e := fun heq => hout (heq ▸ e.mem_preorder_self)
      exact ih e'.span.length (hlength ▸ h.length_lt hroot hin hne) h' rfl

/-! ### The first type of a file -/

/-- The first type that entries list. -/
def ListsFirst (entries : List OutlineEntry) (simple fullName : String) (scope : Span) : Prop :=
  ∃ ahead topLevel rest, entries = ahead ++ .localType ⟨simple, fullName, scope, topLevel⟩ :: rest ∧
    ∀ d : LocalType, .localType d ∉ ahead

theorem listsFirst_entriesOf {ctx : Context} (htype : e.isType)
    (hname : (e.child? .name).map (·.text ctx.source) = some name) :
    ListsFirst (entriesOf ctx e) name (joinNames ctx.above name) ctx.scope := by
  obtain ⟨declared, hdeclared⟩ := Option.isSome_iff_exists.1 htype
  obtain ⟨n, hn, rfl⟩ := Option.map_eq_some_iff.1 hname
  rw [entriesOf_type ctx e hdeclared, hn, Option.map_some, Option.getD_some, entriesNamed, typeOf,
    List.append_assoc]
  exact ⟨_, _, _, rfl, localType_notMem_typeParametersOf _ _⟩

/-- A type that covers all of a tree is the first one listed. -/
theorem StandsFor.listsFirst (ctx : Context) (ht : t.Spread) (h : StandsFor t e)
    (hname : (e.child? .name).map (·.text ctx.source) = some name)
    (hwide : e.span.contains t.span) :
    ListsFirst (entriesOf ctx t) name (joinNames ctx.above name) ctx.scope := by
  induction h generalizing ctx with
  | self htype => exact listsFirst_entriesOf htype hname
  | @behind t e part hkind hpart h ih =>
    obtain ⟨kind, span, parts⟩ := t
    obtain rfl : kind = .enumBodyDeclarations := hkind
    have hin := (ht.child hpart).laidOut.contains h.mem
    have hpartIn := ht.laidOut.contains (Tree.mem_preorder_of_part hpart part.2.mem_preorder_self)
    have halone := ht.parts_eq_singleton hpart (Span.contains_trans hin hwide)
    rw [Tree.parts] at halone
    rw [entriesOf]
    dsimp only
    rw [memberEntries_eq, halone, List.flatMap_singleton]
    exact ih { ctx with topLevel := false } (ht.child hpart) hname
      (Span.contains_trans hwide hpartIn)

/-- **A type that covers the whole file is the first of its types.** -/
theorem Member.types_eq_cons (path : Path) (hroot : root.Spread)
    (h : Member source root.parts e name) (hwide : e.span.contains root.span) :
    ∃ topLevel rest, (ofTree path source root).types =
      ⟨name, joinNames (ofTree path source root).package name, ⟨0, source.utf8ByteSize⟩, topLevel⟩ ::
        rest := by
  obtain ⟨part, hpart, hstands⟩ := h.among
  have hin := (hroot.child hpart).laidOut.contains hstands.mem
  have hpartIn := hroot.laidOut.contains (Tree.mem_preorder_of_part hpart part.2.mem_preorder_self)
  have halone := hroot.parts_eq_singleton hpart (Span.contains_trans hin hwide)
  let ctx : Context :=
    ⟨path, source, (ofTree path source root).package, ⟨0, source.utf8ByteSize⟩, true⟩
  have hentries : (ofTree path source root).entries = entriesOf ctx part.2 := by
    have hmembers : (ofTree path source root).entries = memberEntries ctx root.parts := rfl
    rw [hmembers, memberEntries_eq, halone, List.flatMap_singleton]
  obtain ⟨ahead, topLevel, rest, hfirst, hahead⟩ := hstands.listsFirst ctx
    (hroot.child hpart) h.name (Span.contains_trans hwide hpartIn)
  have hnone : ({ ofTree path source root with entries := ahead } : Outline).types = [] :=
    List.eq_nil_iff_forall_not_mem.2 fun d hd => hahead d (mem_types.1 hd)
  refine ⟨topLevel, ({ ofTree path source root with entries := rest } : Outline).types, ?_⟩
  rw [types] at hnone ⊢
  rw [hentries, hfirst, List.filterMap_append, hnone, List.nil_append]
  rfl

end Outline

namespace Resolution

variable {outlines : List Outline} {o : Outline} {name fullName : String} {place : Span}
variable {d : LocalType}

/-! ### The shortest scope -/

/-- The types of a file that are visible at a place by a name. -/
def visible (o : Outline) (name : String) (place : Span) : List LocalType :=
  o.types.filter fun t => t.simple = name && t.scope.contains place

theorem mem_visible : d ∈ visible o name place ↔
    d ∈ o.types ∧ d.simple = name ∧ d.scope.contains place := by
  rw [visible, List.mem_filter, Bool.and_eq_true, decide_eq_true_eq]

/-- **A name stands for the visible type of the shortest scope**, the first
of several. -/
theorem localType?_eq_argmin (o : Outline) (name : String) (place : Span) :
    localType? o name place = (visible o name place).argmin fun t => t.scope.length := by
  have hfold : ∀ (ts : List LocalType) (t : LocalType), some (ts.foldl narrower t) =
      ts.foldl (List.argAux fun b c => b.scope.length < c.scope.length) (some t) := by
    intro ts
    induction ts with
    | nil => exact fun _ => rfl
    | cons u ts ih =>
      intro t
      have hstep : List.argAux (fun b c : LocalType => b.scope.length < c.scope.length) (some t) u =
          some (narrower t u) := by
        rw [List.argAux, narrower]
        exact (apply_ite some _ _ _).symm
      rw [List.foldl_cons, List.foldl_cons, hstep, ih]
  rw [localType?, ← visible]
  cases visible o name place with
  | nil => rfl
  | cons t ts => exact hfold ts t

/-- The first of some types is the shortest if no other is shorter. -/
theorem argmin_eq_head {ts : List LocalType}
    (h : ∀ t ∈ ts, d.scope.length ≤ t.scope.length) :
    (d :: ts).argmin (fun t => t.scope.length) = some d := by
  rw [List.argmin_cons]
  cases hmin : ts.argmin fun t => t.scope.length with
  | none => rfl
  | some t => exact if_neg (not_lt.2 (h t (List.argmin_mem hmin)))

/-- A name that stands for a type of its own file does so in every project. -/
theorem ofName_of_localType? (hname : '.' ∉ name.toList)
    (hfree : ∀ p ∈ o.typeParameters, p.name = name → ¬ p.scope.contains place)
    (hlocal : (localType? o name place).map LocalType.fullName = some fullName) :
    ofName outlines o name place = .type fullName := by
  have hlater : laterPart name = "" := by
    rw [laterPart_eq_empty_iff, List.dropWhile_eq_nil_iff]
    intro c hc
    exact decide_eq_true fun heq => hname (heq ▸ hc)
  have hparameters : (o.typeParameters.any fun p => p.name = name && p.scope.contains place) =
      false := by
    rw [List.any_eq_false]
    intro p hp hboth
    rw [Bool.and_eq_true, decide_eq_true_eq] at hboth
    exact hfree p hp hboth.1 hboth.2
  rw [ofName_eq, if_pos hlater, ofSimple_eq, own?, hparameters, hlocal]
  rfl

end Resolution

namespace Outline

open Java (Tree Parts)

variable {source name fullName : String} {place : Span} {path : Path} {root t e : Tree}
variable {d : LocalType}

/-! ### What a name stands for in its file -/

/-- **A place in a file**: some bytes in the tree of its text. -/
structure InFile (source : String) (root : Tree) (place : Span) : Prop where
  spread : root.Spread
  ends : root.span.stop ≤ source.utf8ByteSize
  bytes : place.start < place.stop
  inside : root.span.contains place

/-- A type covers the whole file and is called by a name. -/
def WholeFile (source name : String) (e : Tree) : Prop :=
  e.span = ⟨0, source.utf8ByteSize⟩ ∧ (e.child? .name).map (·.text source) = some name

instance (source name : String) (e : Tree) : Decidable (WholeFile source name e) :=
  inferInstanceAs (Decidable (_ ∧ _))

theorem InFile.wide (h : InFile source root place) (hspan : e.span = ⟨0, source.utf8ByteSize⟩) :
    e.span.contains root.span := by
  rw [hspan]
  exact Span.contains_iff.2 ⟨Nat.zero_le _, h.ends⟩

/-- The whole of a file is around the place. -/
theorem InFile.contains (h : InFile source root place) :
    (⟨0, source.utf8ByteSize⟩ : Span).contains place :=
  Span.contains_iff.2 ⟨Nat.zero_le _, (Span.contains_iff.1 h.inside).2.trans h.ends⟩

/-- A type that covers all of a tree is in no body. -/
theorem Declared.member_of_wide {above : String} (hroot : root.Spread)
    (h : Declared source above root.parts e fullName) (hwide : e.span.contains root.span) :
    ∃ name, Member source root.parts e name ∧ fullName = joinNames above name := by
  cases h with
  | here hmember => exact ⟨_, hmember, rfl⟩
  | @inside _ _ s body _ _ _ hmember hbody h =>
    have hbelow := Tree.mem_preorder_of_preorderParts hmember.mem
    have hshort := length_lt_of_body (hroot.of_mem hbelow) hmember.name hbody h.mem_preorder
    have hlong := Span.length_le_of_contains hwide
    have hin := Span.length_le_of_contains (hroot.laidOut.contains hbelow)
    omega

end Outline

namespace Resolution

open Java (Tree)
open Outline (Member Around Innermost InFile WholeFile joinNames ofTree)

variable {source name fullName : String} {place : Span} {path : Path} {root t e : Tree}
variable {d : LocalType}

/-- **The types that are visible at a place** by a name: those of the file
itself and the members of types around the place. -/
theorem cases_of_mem_visible (h : d ∈ visible (ofTree path source root) name place) :
    (∃ t, Member source root.parts t name ∧
      d.fullName = joinNames (ofTree path source root).package name ∧
      d.scope = ⟨0, source.utf8ByteSize⟩) ∨
    ∃ e above, Around source (ofTree path source root).package root name place e above ∧
      d.fullName = joinNames above name ∧ d.scope = e.span := by
  obtain ⟨htype, hsimple, hscope⟩ := mem_visible.1 h
  obtain ⟨simple, fullName, scope, topLevel⟩ := d
  dsimp only at hsimple hscope ⊢
  subst hsimple
  refine ((Outline.exists_mem_types_iff path).1 ⟨topLevel, htype⟩).imp_right ?_
  rintro ⟨e, above, hdeclared, hmember, hname, rfl⟩
  exact ⟨e, above, ⟨hdeclared, hscope, hmember⟩, hname, rfl⟩

theorem exists_visible_of_around
    (h : Around source (ofTree path source root).package root name place e fullName) :
    ∃ d ∈ visible (ofTree path source root) name place, d.scope = e.span := by
  obtain ⟨topLevel, hmem⟩ := (Outline.exists_mem_types_iff path).2
    (.inr ⟨e, fullName, h.declared, h.member, rfl, rfl⟩)
  exact ⟨_, mem_visible.2 ⟨hmem, rfl, h.contains⟩, rfl⟩

theorem exists_visible_of_member (path : Path) (hplace : InFile source root place)
    (h : Member source root.parts t name) :
    ∃ d, d ∈ visible (ofTree path source root) name place := by
  obtain ⟨topLevel, hmem⟩ := (Outline.exists_mem_types_iff path).2
    (.inl ⟨t, h, rfl, rfl⟩)
  exact ⟨_, mem_visible.2 ⟨hmem, rfl, hplace.contains⟩⟩

/-- A name that is visible stands for a type. -/
theorem exists_localType? {o : Outline} (h : d ∈ visible o name place) :
    ∃ m ∈ visible o name place, localType? o name place = some m ∧
      m.scope.length ≤ d.scope.length := by
  rw [localType?_eq_argmin]
  cases hmin : (visible o name place).argmin fun t => t.scope.length with
  | none =>
    rw [List.argmin_eq_none.1 hmin] at h
    cases h
  | some m =>
    have hle : m.scope.length ≤ d.scope.length :=
      List.le_of_mem_argmin (f := fun t => t.scope.length) h hmin
    exact ⟨m, List.argmin_mem hmin, rfl, hle⟩

/-- **A type that is the whole file comes ahead of its members.** -/
theorem localType?_of_wholeFile (hplace : InFile source root place)
    (h : Innermost source (ofTree path source root).package root name place e fullName)
    (hwhole : WholeFile source name e) :
    (localType? (ofTree path source root) name place).map LocalType.fullName = some fullName := by
  have hwide := hplace.wide hwhole.1
  obtain ⟨name', hmember, rfl⟩ := h.declared.member_of_wide hplace.spread hwide
  obtain rfl : name' = name := Option.some.inj (hmember.name.symm.trans hwhole.2)
  obtain ⟨topLevel, rest, htypes⟩ := hmember.types_eq_cons path hplace.spread hwide
  have hvisible : ∃ others, visible (ofTree path source root) name' place =
      ⟨name', joinNames (ofTree path source root).package name', ⟨0, source.utf8ByteSize⟩,
        topLevel⟩ :: others := by
    refine ⟨rest.filter fun t => t.simple = name' && t.scope.contains place, ?_⟩
    rw [visible, htypes, List.filter_cons_of_pos]
    simp only [decide_true, Bool.true_and, hplace.contains]
  obtain ⟨others, hvisible⟩ := hvisible
  rw [localType?_eq_argmin, hvisible, argmin_eq_head, Option.map_some]
  intro d hd
  have hmem : d ∈ visible (ofTree path source root) name' place :=
    hvisible ▸ List.mem_cons_of_mem _ hd
  rcases cases_of_mem_visible hmem with ⟨_, _, _, hscope⟩ | ⟨e', above, haround, _, hscope⟩
  · rw [hscope]
  · rw [hscope, ← hwhole.1]
    exact Span.length_le_of_contains
      ((hplace.spread.of_mem haround.mem).laidOut.contains (h.inner e' above haround))

/-- **The innermost type around a name has the type that it stands for**,
unless the type itself is the whole file and is called like its member. -/
theorem localType?_of_innermost (hplace : InFile source root place)
    (h : Innermost source (ofTree path source root).package root name place e fullName)
    (hwhole : ¬ WholeFile source name e) :
    (localType? (ofTree path source root) name place).map LocalType.fullName =
      some (joinNames fullName name) := by
  obtain ⟨d, hd, hscope⟩ := exists_visible_of_around h.toAround
  obtain ⟨m, hm, hlocal, hle⟩ := exists_localType? hd
  rw [hlocal, Option.map_some, Option.some.injEq]
  rw [hscope] at hle
  rcases cases_of_mem_visible hm with ⟨t, hmember, _, hmscope⟩ | ⟨e', above, haround, hname, hmscope⟩
  · -- the scope would be that of the file, and the type around the name the whole of it
    have hin := Span.contains_iff.1 (hplace.spread.laidOut.contains h.mem)
    have hend := hplace.ends
    have hbytes := hplace.spread.covers e h.declared.mem
    rw [hmscope, Span.length, Span.length] at hle
    have hspan : e.span = ⟨0, source.utf8ByteSize⟩ := by
      cases hs : e.span with
      | mk start stop =>
        rw [hs] at hle hin hbytes
        dsimp only at hle hin hbytes
        rw [Span.mk.injEq]
        omega
    have hwide := hplace.wide hspan
    obtain ⟨name', hmember', -⟩ := h.declared.member_of_wide hplace.spread hwide
    have hin' := hplace.spread.laidOut.contains (Tree.mem_preorder_of_preorderParts hmember.mem)
    obtain rfl := hmember'.eq_of_contains hplace.spread hmember
      (hplace.spread.covers t hmember.mem) (Span.contains_trans hwide hin')
      (Span.contains_iff.2 ⟨Nat.le_refl _, Nat.le_refl _⟩)
    exact absurd ⟨hspan, hmember.name⟩ hwhole
  · have hin := h.inner e' above haround
    by_cases heq : e = e'
    · subst heq
      rw [hname, haround.declared.fullName_unique hplace.spread h.declared]
    · have hlt := haround.length_lt hplace.spread hin heq
      rw [hmscope] at hle
      omega

/-- With no such type around it, a name stands for the type that stands in the
file by that name. -/
theorem localType?_of_member (hplace : InFile source root place)
    (hnone : ∀ e above,
      ¬ Around source (ofTree path source root).package root name place e above)
    (h : Member source root.parts t name) :
    (localType? (ofTree path source root) name place).map LocalType.fullName =
      some (joinNames (ofTree path source root).package name) := by
  obtain ⟨d, hd⟩ := exists_visible_of_member path hplace h
  obtain ⟨m, hm, hlocal, -⟩ := exists_localType? hd
  rw [hlocal, Option.map_some, Option.some.injEq]
  rcases cases_of_mem_visible hm with ⟨_, _, hname, _⟩ | ⟨e, above, haround, _⟩
  · exact hname
  · exact absurd haround (hnone e above)

end Resolution

namespace SymbolTable

open Java (Tree)
open Outline (Around Innermost InFile Member WholeFile joinNames)

variable {before after : List SourceUnit} {file : SourceUnit} {root : Tree} {o : Outline}
variable {r : Reference}

/-- A reference stands at a place in its file. -/
theorem inFile_of_mem {outlines : List Outline} (hspread : root.Spread)
    (hends : root.span.stop ≤ file.text.utf8ByteSize)
    (hr : r ∈ Reference.ofOutline outlines (.ofTree file.path file.text root)) :
    InFile file.text root r.span := by
  obtain ⟨s, hs, hwritten⟩ := Reference.exists_writtenAt hr
  refine ⟨hspread, hends, ?_, ?_⟩
  · rw [hwritten.span]
    exact hspread.covers s hs
  · rw [hwritten.span]
    exact hspread.laidOut.contains (Tree.mem_preorder_of_preorderParts hs)

/-- **Member types bind to the innermost type around a name**, in any tree that
is spread out along the text of its file. Where types around a simple name
have a member type of that name, and no type parameter of the name is in
scope, one of these types is innermost, and the name stands for its member,
whatever the imports and the other files say. The exception is a type that
covers the whole file and is called like its member: there the name stands
for the type. Where there is no such type around it, the name stands for the
type that the file declares by that name, if it does. A table has the
references of the last file at a path, so this is about a file that no other
one follows at its path. -/
theorem resolution_of_memberType
    (hlast : ∀ u ∈ after, u.tree?.isSome → ¬ u.path.same file.path)
    (htree : file.tree? = some root) (hspread : root.Spread)
    (hends : root.span.stop ≤ file.text.utf8ByteSize) (ho : outline? file = some o)
    (hr : r ∈ (build (before ++ file :: after)).references file.path)
    (hname : '.' ∉ r.name.toList)
    (hfree : ∀ p ∈ o.typeParameters, p.name = r.name → ¬ p.scope.contains r.span) :
    ((∃ e fullName, Around file.text o.package root r.name r.span e fullName) →
      ∃ e fullName, Innermost file.text o.package root r.name r.span e fullName) ∧
    (∀ e fullName, Innermost file.text o.package root r.name r.span e fullName →
      r.resolution = .type (if WholeFile file.text r.name e then fullName
        else joinNames fullName r.name)) ∧
    ((∀ e fullName, ¬ Around file.text o.package root r.name r.span e fullName) →
      ∀ t, Member file.text root.parts t r.name →
        r.resolution = .type (joinNames o.package r.name)) := by
  rw [references_of_last hlast ho] at hr
  rw [outline?, htree, Option.map_some, Option.some.injEq] at ho
  subst ho
  have hplace := inFile_of_mem hspread hends hr
  have hresolution := Reference.resolution_of_mem hr
  refine ⟨?_, ?_, ?_⟩
  · rintro ⟨e, fullName, haround⟩
    exact haround.exists_innermost hplace.spread hplace.bytes
  · intro e fullName hinnermost
    rw [hresolution]
    refine Resolution.ofName_of_localType? hname hfree ?_
    split
    case isTrue hwhole => exact Resolution.localType?_of_wholeFile hplace hinnermost hwhole
    case isFalse hwhole => exact Resolution.localType?_of_innermost hplace hinnermost hwhole
  · intro hnone t hmember
    rw [hresolution]
    exact Resolution.ofName_of_localType? hname hfree
      (Resolution.localType?_of_member hplace hnone hmember)

/-- A type at the top of a file is around a place and has a type of a name
right in its body. -/
def holdsAround (source : String) (root : Tree) (name : String) (place : Span) : Bool :=
  root.parts.any fun part => part.2.isType && part.2.span.contains place &&
    ((part.2.child? .name).map (·.text source)).isSome &&
    (part.2.child? .body).any fun body => body.parts.any fun inner =>
      inner.2.isType && (inner.2.child? .name).map (·.text source) == some name

theorem exists_around_of_holdsAround {source package name : String} {place : Span}
    (h : holdsAround source root name place) :
    ∃ e fullName, Around source package root name place e fullName := by
  simp only [holdsAround, List.any_eq_true, Bool.and_eq_true, Option.any_eq_true,
    beq_iff_eq] at h
  obtain ⟨part, hpart, ⟨⟨htype, hcontains⟩, hname⟩, body, hbody, inner, hinner, htype', hname'⟩ := h
  obtain ⟨outer, houter⟩ := Option.isSome_iff_exists.1 hname
  exact ⟨part.2, _, .here ⟨⟨part, hpart, .self htype⟩, houter⟩, hcontains,
    body, hbody, inner.2, ⟨inner, hinner, .self htype'⟩, hname'⟩

/-- A file with a type of one name in another and in a type of that other
one. -/
def nestedNames : SourceUnit := .ofJava "A.java"
  "class A\x7bclass B\x7b\x7dclass C\x7bclass B\x7b\x7dB x;\x7d\x7d"

/-- The name in the inner type stands for the type there. -/
theorem resolution_of_memberType_nestedNames :
    ∃ root o, ∃ r ∈ (build [nestedNames]).references nestedNames.path,
      nestedNames.tree? = some root ∧ outline? nestedNames = some o ∧
      r.resolution = .type "A.C.B" ∧
      ∃ e fullName, Innermost nestedNames.text o.package root r.name r.span e fullName ∧
        r.resolution = .type (if WholeFile nestedNames.text r.name e then fullName
          else joinNames fullName r.name) := by
  -- all that is evaluated stands in one fact, so that the text is read once
  have hfacts : nestedNames.tree?.any fun root =>
      (Outline.ofTree nestedNames.path nestedNames.text root).typeParameters.isEmpty &&
      ((build [nestedNames]).references nestedNames.path).any fun r =>
        '.' ∉ r.name.toList && r.resolution == .type "A.C.B" &&
          holdsAround nestedNames.text root r.name r.span := by decide +kernel
  simp only [Option.any_eq_true, List.any_eq_true, Bool.and_eq_true, decide_eq_true_eq,
    beq_iff_eq, List.isEmpty_iff] at hfacts
  obtain ⟨root, htree, hfree, r, hr, ⟨hname, hresolution⟩, haround⟩ := hfacts
  have hfree := List.eq_nil_iff_forall_not_mem.1 hfree
  have ho : outline? nestedNames = some (.ofTree nestedNames.path nestedNames.text root) := by
    rw [outline?, htree, Option.map_some]
  have hregular := SourceUnit.regular_of_ofJava htree
  obtain ⟨hinner, hbinds, -⟩ := @resolution_of_memberType [] [] _ _ _ _
    (fun _ hu => absurd hu List.not_mem_nil) htree hregular.spread hregular.ends ho hr hname
    fun p hp => absurd hp (hfree p)
  obtain ⟨e, fullName, hinnermost⟩ := hinner (exists_around_of_holdsAround haround)
  exact ⟨root, _, r, hr, htree, ho, hresolution, e, fullName, hinnermost,
    hbinds e fullName hinnermost⟩

/-- In a project, names stand for the member types of the innermost types
around them. -/
def BindsInnermost (units : List SourceUnit) : Prop :=
  ∀ file ∈ units, ∀ root o, file.tree? = some root → outline? file = some o →
    ∀ r ∈ (build units).references file.path, '.' ∉ r.name.toList →
      (∀ p ∈ o.typeParameters, p.name = r.name → ¬ p.scope.contains r.span) →
      ∀ e fullName, Innermost file.text o.package root r.name r.span e fullName →
        r.resolution = .type (joinNames fullName r.name)

/-- A file with nothing but a type that has a member type of its own name. -/
def selfNamed : SourceUnit := .ofJava "N.java" "class N\x7bclass N\x7b\x7d N x;\x7d"

/-- The name in the type stands for the type and not for its member. -/
theorem not_bindsInnermost_selfNamed : ¬ BindsInnermost [selfNamed] := by
  intro hbinds
  have hfacts : selfNamed.tree?.any fun root =>
      (Outline.ofTree selfNamed.path selfNamed.text root).typeParameters.isEmpty &&
      (Tree.preorderParts root.parts).all (fun t =>
        (t.child? .name).map (·.text selfNamed.text) != some "") &&
      ((build [selfNamed]).references selfNamed.path).any fun r =>
        r.name == "N" && r.resolution == .type "N" && r.span.start < r.span.stop &&
          holdsAround selfNamed.text root r.name r.span := by decide +kernel
  simp only [Option.any_eq_true, List.any_eq_true, List.all_eq_true, Bool.and_eq_true,
    decide_eq_true_eq, beq_iff_eq, bne_iff_ne, List.isEmpty_iff] at hfacts
  obtain ⟨root, htree, ⟨hfree, hnamed⟩, r, hr, ⟨⟨hname, hresolution⟩, hbytes⟩, haround⟩ := hfacts
  have hfree := List.eq_nil_iff_forall_not_mem.1 hfree
  have ho : outline? selfNamed = some (.ofTree selfNamed.path selfNamed.text root) := by
    rw [outline?, htree, Option.map_some]
  obtain ⟨e, fullName, haround⟩ := exists_around_of_holdsAround haround
  obtain ⟨e, fullName, hinnermost⟩ :=
    haround.exists_innermost (SourceUnit.regular_of_ofJava htree).spread hbytes
  have hbound := hbinds selfNamed List.mem_cons_self root _ htree ho r hr (by rw [hname]; decide)
    (fun p hp => absurd hp (hfree p)) e fullName hinnermost
  rw [hresolution, hname, Resolution.type.injEq] at hbound
  exact Outline.joinNames_ne (hinnermost.declared.fullName_ne_empty hnamed) hbound.symm

end SymbolTable

end Remedy
