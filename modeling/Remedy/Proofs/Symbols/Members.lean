import Mathlib
import Remedy.Proofs.Java.Layout
import Remedy.Proofs.Symbols.LocalTypes
/-!
# The types of a file

A type stands among the members of the file, or in the body of another type
of the file, and has its full name from all of them (`Declared`). The outline
lists each under its simple name, with the scope of the members that it
stands among: the type whose body they are, or the whole file
(`exists_mem_types_iff`).
-/

namespace Remedy

namespace Outline

open Java (Tree Parts)

variable {source above simple fullName name : String} {scope : Span} {ctx : Context}
variable {parts : Parts} {t s : Tree}

/-! ### Types and their members -/

/-- **A tree stands for a type among members**: it is the type, or it holds
the members behind the constants of an enumeration, with the type among
them. -/
inductive StandsFor : Tree → Tree → Prop
  /-- the tree is the type -/
  | self {t : Tree} (htype : t.isType) : StandsFor t t
  /-- the type is behind the constants of an enumeration -/
  | behind {t s : Tree} {part : Option Java.Role × Tree} (hkind : t.kind = .enumBodyDeclarations)
      (hpart : part ∈ t.parts) (h : StandsFor part.2 s) : StandsFor t s

theorem StandsFor.isType (h : StandsFor t s) : s.isType := by
  induction h with
  | self htype => exact htype
  | behind _ _ _ ih => exact ih

/-- A type stands for itself alone. -/
theorem StandsFor.eq_of_isType (h : StandsFor t s) (htype : t.isType) : s = t := by
  cases h with
  | self => rfl
  | behind hkind =>
    rw [Tree.isType, hkind] at htype
    cases htype

theorem StandsFor.mem (h : StandsFor t s) : s ∈ t.preorder := by
  induction h with
  | self => exact Tree.mem_preorder_self _
  | behind _ hpart _ ih => exact Tree.mem_preorder_of_part hpart ih

/-- **A type stands among members by a name.** -/
structure Member (source : String) (parts : Parts) (t : Tree) (name : String) : Prop where
  among : ∃ part ∈ parts, StandsFor part.2 t
  name : (t.child? .name).map (·.text source) = some name

theorem Member.mem (h : Member source parts t name) : t ∈ Tree.preorderParts parts := by
  obtain ⟨part, hpart, ht⟩ := h.among
  exact Tree.mem_preorderParts.2 ⟨part, hpart, ht.mem⟩

/-- **A type among members or in their bodies**, at any depth, with its full
name below the one that stands above. -/
inductive Declared (source : String) : String → Parts → Tree → String → Prop
  /-- the type is one of the members -/
  | here {above : String} {parts : Parts} {t : Tree} {name : String}
      (hmember : Member source parts t name) : Declared source above parts t (joinNames above name)
  /-- the type is in the body of a member -/
  | inside {above : String} {parts : Parts} {t body e : Tree} {name fullName : String}
      (hmember : Member source parts t name) (hbody : t.child? .body = some body)
      (hinner : Declared source (joinNames above name) body.parts e fullName) :
      Declared source above parts e fullName

theorem Declared.mem (h : Declared source above parts t fullName) :
    t ∈ Tree.preorderParts parts := by
  induction h with
  | here hmember => exact hmember.mem
  | inside hmember hbody _ ih =>
    have hbelow := Tree.mem_preorder_of_child? hbody (Tree.mem_preorder_of_preorderParts ih)
    exact Tree.preorderParts_trans hbelow hmember.mem

/-- **A type has a member type of a name** in its body. -/
def HasMember (source : String) (e : Tree) (name : String) : Prop :=
  ∃ body, e.child? .body = some body ∧ ∃ t, Member source body.parts t name

/-! ### What the outline lists -/

/-- Entries list a type, with the scope of its simple name. -/
def Lists (entries : List OutlineEntry) (simple fullName : String) (scope : Span) : Prop :=
  ∃ topLevel, .localType ⟨simple, fullName, scope, topLevel⟩ ∈ entries

theorem not_lists {entries : List OutlineEntry} (h : ∀ d : LocalType, .localType d ∉ entries) :
    ¬ Lists entries simple fullName scope :=
  fun ⟨_, hmem⟩ => h _ hmem

theorem lists_append {xs ys : List OutlineEntry} :
    Lists (xs ++ ys) simple fullName scope ↔
      Lists xs simple fullName scope ∨ Lists ys simple fullName scope := by
  simp only [Lists, List.mem_append, exists_or]

theorem lists_flatMap {α : Type} {xs : List α} {f : α → List OutlineEntry} :
    Lists (xs.flatMap f) simple fullName scope ↔ ∃ x ∈ xs, Lists (f x) simple fullName scope := by
  simp only [Lists, List.mem_flatMap]
  tauto

theorem lists_typeOf {kind : DeclarationKind} :
    Lists (typeOf ctx kind t s) simple fullName scope ↔ simple = s.text ctx.source ∧
      fullName = joinNames ctx.above simple ∧ scope = ctx.scope := by
  rw [typeOf, lists_append, or_iff_right (not_lists (localType_notMem_typeParametersOf _ _))]
  constructor
  · rintro ⟨topLevel, hmem⟩
    rcases List.mem_pair.1 hmem with h | h
    · cases h
      exact ⟨rfl, rfl, rfl⟩
    · cases h
  · rintro ⟨rfl, rfl, rfl⟩
    exact ⟨ctx.topLevel, List.mem_cons_self⟩

/-- The members of a type are below its name, in its own scope. -/
def Context.inside (ctx : Context) (t : Tree) (name : String) : Context :=
  { ctx with above := joinNames ctx.above name, scope := t.span, topLevel := false }

theorem bodyEntries_eq (ctx : Context) (t : Tree) :
    bodyEntries ctx t.parts = ((t.child? .body).map fun b => memberEntries ctx b.parts).getD [] := by
  obtain ⟨kind, span, parts⟩ := t
  induction parts with
  | nil => rfl
  | cons part parts ih =>
    obtain ⟨role, ⟨kind', span', inner⟩⟩ := part
    rw [Tree.parts] at ih ⊢
    rw [bodyEntries, Tree.child?, Tree.childrenAs, Tree.parts, List.filter_cons]
    by_cases hbody : role = some .body
    · simp only [hbody, if_true, beq_self_eq_true, List.map_cons, List.head?_cons, Option.map_some,
        Option.getD_some, Tree.parts]
    · simp only [hbody, if_false, beq_iff_eq]
      exact ih

theorem memberEntries_eq (ctx : Context) (parts : Parts) :
    memberEntries ctx parts = parts.flatMap fun part => entriesOf ctx part.2 := by
  induction parts with
  | nil => rfl
  | cons part parts ih =>
    obtain ⟨role, ⟨kind, span, inner⟩⟩ := part
    rw [memberEntries, List.flatMap_cons, ih]
    congr 1
    cases kind <;> rfl

/-- A tree that is neither a type nor the members behind the constants of an
enumeration lists no type. -/
theorem localType_notMem_entriesOf (htype : DeclarationKind.ofType? t.kind = none)
    (hmembers : t.kind ≠ .enumBodyDeclarations) (d : LocalType) :
    .localType d ∉ entriesOf ctx t := by
  obtain ⟨kind, span, parts⟩ := t
  have hkind : DeclarationKind.ofType? kind = none := htype
  rw [entriesOf.eq_def]
  simp only [hkind]
  split
  · exact localType_notMem_methodOf ctx _ d
  · exact localType_notMem_methodOf ctx _ d
  · exact localType_notMem_fieldsOf ctx _ d
  · exact localType_notMem_fieldsOf ctx _ d
  · exact absurd rfl hmembers
  · exact List.not_mem_nil

/-- A type or one of its members is listed: the type itself among its
siblings, or what its body lists. -/
def ListsBelow (ctx : Context) (t : Tree) (name simple fullName : String) (scope : Span) : Prop :=
  (simple = name ∧ fullName = joinNames ctx.above simple ∧ scope = ctx.scope) ∨
    ∃ body, t.child? .body = some body ∧
      Lists (memberEntries (ctx.inside t name) body.parts) simple fullName scope

/-- What a type lists, by its name. -/
theorem lists_entriesOf_of_isType (htype : t.isType) :
    Lists (entriesOf ctx t) simple fullName scope ↔
      ∃ name, (t.child? .name).map (·.text ctx.source) = some name ∧
        ListsBelow ctx t name simple fullName scope := by
  obtain ⟨declared, hdeclared⟩ := Option.isSome_iff_exists.1 htype
  have hbody (inner : Context) : Lists (bodyEntries inner t.parts) simple fullName scope ↔
      ∃ body, t.child? .body = some body ∧
        Lists (memberEntries inner body.parts) simple fullName scope := by
    rw [bodyEntries_eq]
    cases t.child? .body with
    | none => exact iff_of_false (not_lists fun _ => List.not_mem_nil) (by rintro ⟨_, h, _⟩; cases h)
    | some body => simp only [Option.map_some, Option.getD_some, Option.some.injEq, exists_eq_left']
  rw [entriesOf_type ctx t hdeclared]
  cases t.child? .name with
  | none => exact iff_of_false (not_lists fun _ => List.not_mem_nil) (by rintro ⟨_, h, _⟩; cases h)
  | some n =>
    simp only [Option.map_some, Option.getD_some, Option.some.injEq, exists_eq_left']
    rw [entriesNamed, lists_append, lists_typeOf, hbody]
    rfl

/-- **What a tree lists** are the types it stands for, and what their bodies
list. -/
theorem lists_entriesOf : ∀ {t : Tree} {ctx : Context},
    Lists (entriesOf ctx t) simple fullName scope ↔
      ∃ s name, StandsFor t s ∧ (s.child? .name).map (·.text ctx.source) = some name ∧
        ListsBelow ctx s name simple fullName scope := by
  intro t
  induction t using Tree.induct with
  | h t ih =>
    intro ctx
    by_cases htype : t.isType
    case pos =>
      rw [lists_entriesOf_of_isType htype]
      constructor
      · rintro ⟨name, hname, hlists⟩
        exact ⟨t, name, .self htype, hname, hlists⟩
      · rintro ⟨s, name, hstands, hname, hlists⟩
        obtain rfl := hstands.eq_of_isType htype
        exact ⟨name, hname, hlists⟩
    case neg =>
      have hnone : DeclarationKind.ofType? t.kind = none :=
        Option.not_isSome_iff_eq_none.1 htype
      by_cases hmembers : t.kind = .enumBodyDeclarations
      case pos =>
        have hentries : entriesOf ctx t = memberEntries { ctx with topLevel := false } t.parts := by
          obtain ⟨kind, span, parts⟩ := t
          obtain rfl : kind = .enumBodyDeclarations := hmembers
          rw [entriesOf]
          rfl
        rw [hentries, memberEntries_eq, lists_flatMap]
        constructor
        · rintro ⟨part, hpart, hlists⟩
          obtain ⟨s, name, hstands, hrest⟩ := (ih part hpart).1 hlists
          exact ⟨s, name, .behind hmembers hpart hstands, hrest⟩
        · rintro ⟨s, name, hstands, hrest⟩
          cases hstands with
          | self hself => exact absurd hself htype
          | behind _ hpart hstands => exact ⟨_, hpart, (ih _ hpart).2 ⟨s, name, hstands, hrest⟩⟩
      case neg =>
        refine iff_of_false (not_lists (localType_notMem_entriesOf hnone hmembers)) ?_
        rintro ⟨s, name, hstands, -⟩
        cases hstands with
        | self hself => exact htype hself
        | behind hkind => exact hmembers hkind

/-- What members list. -/
theorem lists_memberEntries :
    Lists (memberEntries ctx parts) simple fullName scope ↔
      ∃ t name, Member ctx.source parts t name ∧ ListsBelow ctx t name simple fullName scope := by
  rw [memberEntries_eq, lists_flatMap]
  constructor
  · rintro ⟨part, hpart, hlists⟩
    obtain ⟨t, name, hstands, hname, hrest⟩ := lists_entriesOf.1 hlists
    exact ⟨t, name, ⟨⟨part, hpart, hstands⟩, hname⟩, hrest⟩
  · rintro ⟨t, name, ⟨⟨part, hpart, hstands⟩, hname⟩, hrest⟩
    exact ⟨part, hpart, lists_entriesOf.2 ⟨t, name, hstands, hname, hrest⟩⟩

/-- A type is listed where a member type is named: among the members at
hand, or in the body of a declared type. -/
def Offered (ctx : Context) (parts : Parts) (simple fullName : String) (scope : Span) : Prop :=
  (∃ t, Member ctx.source parts t simple ∧ fullName = joinNames ctx.above simple ∧
      scope = ctx.scope) ∨
    ∃ e above, Declared ctx.source ctx.above parts e above ∧ HasMember ctx.source e simple ∧
      fullName = joinNames above simple ∧ scope = e.span

/-- What the body of a member offers is offered by the members. -/
theorem Offered.outward {body : Tree} (hmember : Member ctx.source parts t name)
    (hbody : t.child? .body = some body)
    (h : Offered (ctx.inside t name) body.parts simple fullName scope) :
    Offered ctx parts simple fullName scope := by
  rcases h with ⟨s, hs, hname, hscope⟩ | ⟨e, above, he, hrest⟩
  · exact .inr ⟨t, _, .here hmember, ⟨body, hbody, s, hs⟩, hname, hscope⟩
  · exact .inr ⟨e, above, .inside hmember hbody he, hrest⟩

theorem offered_of_lists : ∀ {t : Tree} {ctx : Context},
    Lists (memberEntries ctx t.parts) simple fullName scope →
      Offered ctx t.parts simple fullName scope := by
  intro t
  induction t using Tree.inductBelow with
  | h t ih =>
    intro ctx hlists
    obtain ⟨s, name, hmember, ⟨rfl, hname, hscope⟩ | ⟨body, hbody, hlists⟩⟩ :=
      lists_memberEntries.1 hlists
    · exact .inl ⟨s, hmember, hname, hscope⟩
    · have hbelow : body ∈ Tree.preorderParts t.parts := Tree.preorderParts_trans
        (Tree.mem_preorder_of_child? hbody body.mem_preorder_self) hmember.mem
      exact (ih body hbelow hlists).outward hmember hbody

theorem lists_of_declared {e : Tree} (h : Declared source above parts e fullName)
    (hmember : HasMember source e simple) (hsource : ctx.source = source)
    (habove : ctx.above = above) :
    Lists (memberEntries ctx parts) simple (joinNames fullName simple) e.span := by
  induction h generalizing ctx with
  | @here above parts e name hhere =>
    obtain ⟨body, hbody, t, ht⟩ := hmember
    subst hsource habove
    exact lists_memberEntries.2 ⟨e, name, hhere, .inr ⟨body, hbody,
      lists_memberEntries.2 ⟨t, simple, ht, .inl ⟨rfl, rfl, rfl⟩⟩⟩⟩
  | @inside above parts t body e name fullName hhere hbody _ ih =>
    subst hsource habove
    exact lists_memberEntries.2 ⟨t, name, hhere, .inr ⟨body, hbody,
      @ih (ctx.inside t name) hmember rfl rfl⟩⟩

/-- **What the members of a tree list** is what they offer. -/
theorem lists_iff_offered : Lists (memberEntries ctx t.parts) simple fullName scope ↔
    Offered ctx t.parts simple fullName scope := by
  refine ⟨offered_of_lists, ?_⟩
  rintro (⟨s, hmember, rfl, rfl⟩ | ⟨e, above, he, hmember, rfl, rfl⟩)
  · exact lists_memberEntries.2 ⟨s, simple, hmember, .inl ⟨rfl, rfl, rfl⟩⟩
  · exact lists_of_declared he hmember rfl rfl

/-- **The types of a file**: those among its members, visible everywhere, and
those in the bodies of its types, each visible in the type whose member it
is. -/
theorem exists_mem_types_iff (path : Path) {root : Tree} :
    (∃ topLevel, ⟨simple, fullName, scope, topLevel⟩ ∈ (ofTree path source root).types) ↔
      (∃ t, Member source root.parts t simple ∧
        fullName = joinNames (ofTree path source root).package simple ∧
        scope = ⟨0, source.utf8ByteSize⟩) ∨
      ∃ e above, Declared source (ofTree path source root).package root.parts e above ∧
        HasMember source e simple ∧ fullName = joinNames above simple ∧ scope = e.span := by
  simp only [mem_types]
  exact lists_iff_offered

end Outline

end Remedy
