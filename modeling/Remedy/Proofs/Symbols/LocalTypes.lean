import Mathlib
import Remedy.Proofs.Symbols.References
/-!
# Types that blocks declare

Names are looked up among the types that stand in bodies of types, at any
depth, and among no others. A type that a block declares is none of them: a
table resolves every name as if no block declared any type
(`SymbolTable.resolution_withoutLocals`). So a name that such a type
captures is bound to whatever else there is of that name, even to an
imported type (`SymbolTable.not_shadowed_localRandom`).
-/

namespace Remedy

namespace Java

/-- Statements are the children of these kinds. -/
def Kind.holdsStatements : Kind → Bool
  | .block | .constructorBody | .switchBlockStatementGroup => true
  | _ => false

namespace Tree

/-- The tree declares a type. -/
def isType (t : Tree) : Bool := (DeclarationKind.ofType? t.kind).isSome

mutual

/-- A tree without the types that are statements in it. The body of a type
holds members, not statements. -/
def withoutLocals (isBody : Bool) : Tree → Tree
  | .node kind span parts =>
    .node kind span
      (partsWithoutLocals (!isBody && kind.holdsStatements)
        (DeclarationKind.ofType? kind).isSome parts)

/-- Children without the types among them that are statements. -/
def partsWithoutLocals (areStatements ofType : Bool) :
    List (Option Role × Tree) → List (Option Role × Tree)
  | [] => []
  | (role, t) :: rest =>
    if areStatements && role.isNone && t.isType then partsWithoutLocals areStatements ofType rest
    else (role, t.withoutLocals (ofType && role == some .body)) ::
      partsWithoutLocals areStatements ofType rest

end

@[simp] theorem kind_withoutLocals (isBody : Bool) (t : Tree) :
    (t.withoutLocals isBody).kind = t.kind := by
  cases t
  rw [withoutLocals, kind, kind]

@[simp] theorem span_withoutLocals (isBody : Bool) (t : Tree) :
    (t.withoutLocals isBody).span = t.span := by
  cases t
  rw [withoutLocals, span, span]

@[simp] theorem text_withoutLocals (source : String) (isBody : Bool) (t : Tree) :
    (t.withoutLocals isBody).text source = t.text source := by
  rw [text, text, span_withoutLocals]

/-- **A tree declares a local type**: a type that is a statement in it. -/
inductive DeclaresLocal : Bool → Tree → Tree → Prop
  /-- the tree holds statements, and the type is one of them -/
  | here {kind : Kind} {span : Span} {parts : List (Option Role × Tree)} {t : Tree}
      (hkind : kind.holdsStatements) (hmem : (none, t) ∈ parts) (htype : t.isType) :
      DeclaresLocal false (.node kind span parts) t
  /-- a child declares it -/
  | deeper {isBody : Bool} {kind : Kind} {span : Span} {parts : List (Option Role × Tree)}
      {role : Option Role} {child t : Tree} (hmem : (role, child) ∈ parts)
      (hchild : DeclaresLocal ((DeclarationKind.ofType? kind).isSome && role == some .body) child t) :
      DeclaresLocal isBody (.node kind span parts) t

/-- The children that are left stand for children that were there. -/
theorem mem_partsWithoutLocals {areStatements ofType : Bool} {role : Option Role} {t : Tree}
    {parts : List (Option Role × Tree)}
    (h : (role, t) ∈ partsWithoutLocals areStatements ofType parts) :
    ¬ (areStatements && role.isNone && t.isType) ∧ ∃ child, (role, child) ∈ parts ∧
      t = child.withoutLocals (ofType && role == some .body) := by
  induction parts with
  | nil => cases h
  | cons p rest ih =>
    obtain ⟨r, child⟩ := p
    rw [partsWithoutLocals] at h
    split at h
    case isTrue =>
      obtain ⟨hkept, c, hc, rfl⟩ := ih h
      exact ⟨hkept, c, List.mem_cons_of_mem _ hc, rfl⟩
    case isFalse hkept =>
      rcases List.mem_cons.1 h with heq | hrest
      · obtain ⟨rfl, rfl⟩ := Prod.mk.inj heq
        exact ⟨by rwa [isType, kind_withoutLocals], child, List.mem_cons_self, rfl⟩
      · obtain ⟨hkept, c, hc, rfl⟩ := ih hrest
        exact ⟨hkept, c, List.mem_cons_of_mem _ hc, rfl⟩

/-- **No local type is left.** -/
theorem not_declaresLocal_withoutLocals {isBody : Bool} {t d : Tree} :
    ¬ DeclaresLocal isBody (t.withoutLocals isBody) d := by
  intro h
  generalize hs : t.withoutLocals isBody = s at h
  induction h generalizing t with
  | @here kind span parts d hkind hmem htype =>
    obtain ⟨kind', span', parts'⟩ := t
    rw [withoutLocals, node.injEq] at hs
    obtain ⟨rfl, -, rfl⟩ := hs
    refine (mem_partsWithoutLocals hmem).1 ?_
    rw [hkind, htype]
    rfl
  | @deeper isBody kind span parts role child d hmem hchild ih =>
    obtain ⟨kind', span', parts'⟩ := t
    rw [withoutLocals, node.injEq] at hs
    obtain ⟨rfl, -, rfl⟩ := hs
    obtain ⟨-, c, -, rfl⟩ := mem_partsWithoutLocals hmem
    exact ih rfl

/-! ### What is told by the children that are kept -/

section

variable {β : Type} {f : Tree → Option β}

/-- What is asked of a tree has the same answer without the local types. -/
def Unmoved (f : Tree → β) : Prop := ∀ isBody t, f (t.withoutLocals isBody) = f t

/-- **The answers of children** are the same if types without a role give
none. -/
theorem filterMap_parts_withoutLocals {f : Option Role × Tree → Option β}
    (hf : ∀ role, Unmoved fun t => f (role, t)) (htype : ∀ t, t.isType → f (none, t) = none)
    (isBody : Bool) (t : Tree) :
    (t.withoutLocals isBody).parts.filterMap f = t.parts.filterMap f := by
  obtain ⟨kind, span, parts⟩ := t
  rw [withoutLocals, Tree.parts, Tree.parts]
  generalize (!isBody && kind.holdsStatements) = areStatements
  induction parts with
  | nil => rfl
  | cons p rest ih =>
    obtain ⟨role, t⟩ := p
    rw [partsWithoutLocals]
    split
    case isTrue hdropped =>
      simp only [Bool.and_eq_true, Option.isNone_iff_eq_none] at hdropped
      rw [ih, List.filterMap_cons, hdropped.1.2, htype t hdropped.2]
    case isFalse =>
      have hsame := hf role ((DeclarationKind.ofType? kind).isSome && role == some .body) t
      simp only at hsame
      rw [List.filterMap_cons, List.filterMap_cons, ih, hsame]

/-- The children that play a role are kept. -/
theorem filterMap_childrenAs_withoutLocals (hf : Unmoved f) (role : Role) (isBody : Bool)
    (t : Tree) :
    ((t.withoutLocals isBody).childrenAs role).filterMap f = (t.childrenAs role).filterMap f := by
  have hrole : ∀ t : Tree, (t.childrenAs role).filterMap f =
      t.parts.filterMap fun p => if p.1 == some role then f p.2 else none := by
    intro t
    rw [childrenAs, List.filterMap_map, List.filterMap_filter]
    rfl
  rw [hrole, hrole]
  refine filterMap_parts_withoutLocals (fun r isBody t => ?_) (fun t _ => rfl) isBody t
  simp only [hf isBody t]

theorem map_child?_withoutLocals {g : Tree → β} (hg : Unmoved g) (role : Role) (isBody : Bool)
    (t : Tree) : ((t.withoutLocals isBody).child? role).map g = (t.child? role).map g := by
  have hhead : ∀ t : Tree, (t.child? role).map g =
      ((t.childrenAs role).filterMap fun c => some (g c)).head? := by
    intro t
    rw [child?, List.filterMap_eq_map', List.head?_map]
  have hsome : Unmoved fun c => some (g c) := fun isBody t => congrArg some (hg isBody t)
  rw [hhead, hhead, filterMap_childrenAs_withoutLocals hsome]

/-- The children of a kind that is not that of a type are kept. -/
theorem filterMap_namedChildren_withoutLocals {q : Kind → Bool}
    (hq : ∀ t : Tree, t.isType → q t.kind = false) (hf : Unmoved f) (isBody : Bool) (t : Tree) :
    ((t.withoutLocals isBody).namedChildren.filter fun c => q c.kind).filterMap f =
      (t.namedChildren.filter fun c => q c.kind).filterMap f := by
  have hkind : ∀ t : Tree, (t.namedChildren.filter fun c => q c.kind).filterMap f =
      t.parts.filterMap fun p => if p.2.kind.isNamed && q p.2.kind then f p.2 else none := by
    intro t
    rw [namedChildren, children, List.filter_filter, List.filterMap_filter, List.filterMap_map]
    congr 1
    funext p
    simp only [Function.comp_apply, Bool.and_comm]
  rw [hkind, hkind]
  refine filterMap_parts_withoutLocals (fun r isBody t => ?_) (fun t ht => ?_) isBody t
  · simp only [hf isBody t, kind_withoutLocals]
  · simp only [hq t ht, Bool.and_false, Bool.false_eq_true, if_false]

theorem map_find?_withoutLocals {q : Kind → Bool} (hq : ∀ t : Tree, t.isType → q t.kind = false)
    {g : Tree → β} (hg : Unmoved g) (isBody : Bool) (t : Tree) :
    ((t.withoutLocals isBody).namedChildren.find? fun c => q c.kind).map g =
      (t.namedChildren.find? fun c => q c.kind).map g := by
  have hhead : ∀ t : Tree, (t.namedChildren.find? fun c => q c.kind).map g =
      ((t.namedChildren.filter fun c => q c.kind).filterMap fun c => some (g c)).head? := by
    intro t
    rw [← List.head?_filter, List.filterMap_eq_map', List.head?_map]
  have hsome : Unmoved fun c => some (g c) := fun isBody t => congrArg some (hg isBody t)
  rw [hhead, hhead, filterMap_namedChildren_withoutLocals hq hsome]

end

end Tree

end Java

namespace Outline

open Java Java.Tree

/-! ### What a file declares -/

variable {source : String} {ctx : Context}

/-- A type is not of a kind that declares none. -/
theorem ne_of_isType {kind : Kind} (hkind : DeclarationKind.ofType? kind = none) {t : Tree}
    (h : t.isType) : t.kind ≠ kind := by
  rintro rfl
  rw [isType, hkind] at h
  cases h

theorem unmoved_typeParametersOf (source : String) : Unmoved (typeParametersOf source) := by
  -- the names of the parameters, with the span of the tree that declares them
  let named (span : Span) (p : Tree) : Option OutlineEntry :=
    (p.namedChildren.find? fun c => c.kind = .typeIdentifier ∨ c.kind = .identifier).map
      fun name => .typeParameter ⟨name.text source, span⟩
  let entries (span : Span) (parameters : Tree) : List OutlineEntry :=
    (parameters.namedChildren.filter (·.kind = .typeParameter)).filterMap (named span)
  have hnamed : ∀ span, Unmoved (named span) := by
    intro span
    refine map_find?_withoutLocals (q := fun k => k = .typeIdentifier ∨ k = .identifier) ?_ ?_
    · intro t ht
      exact decide_eq_false fun h => h.elim (ne_of_isType rfl ht) (ne_of_isType rfl ht)
    · intro isBody t
      simp only [text_withoutLocals]
  have hentries : ∀ span, Unmoved (entries span) := fun span =>
    filterMap_namedChildren_withoutLocals (q := fun k => k = .typeParameter)
      (fun t ht => decide_eq_false (ne_of_isType rfl ht)) (hnamed span)
  have hparameters : ∀ t, typeParametersOf source t =
      ((t.child? .typeParameters).map (entries t.span)).getD [] := by
    intro t
    rw [typeParametersOf]
    cases t.child? .typeParameters <;> rfl
  intro isBody t
  rw [hparameters, hparameters, span_withoutLocals, map_child?_withoutLocals (hentries t.span)]

theorem unmoved_member (ctx : Context) (kind : DeclarationKind) : Unmoved (member ctx kind) := by
  intro isBody t
  rw [member, member, text_withoutLocals, span_withoutLocals]

theorem unmoved_methodOf (ctx : Context) : Unmoved (methodOf ctx) := by
  intro isBody t
  rw [methodOf, methodOf, unmoved_typeParametersOf,
    map_child?_withoutLocals (unmoved_member ctx .method)]

theorem unmoved_fieldsOf (ctx : Context) : Unmoved (fieldsOf ctx) := by
  have hname : Unmoved fun d : Tree => (d.child? .name).map (member ctx .field) :=
    fun isBody t => map_child?_withoutLocals (unmoved_member ctx .field) .name isBody t
  exact fun isBody t => filterMap_childrenAs_withoutLocals hname .declarator isBody t

/-- Members are all kept. -/
theorem partsWithoutLocals_cons (ofType : Bool) (role : Option Role) (t : Tree)
    (rest : List (Option Role × Tree)) :
    partsWithoutLocals false ofType ((role, t) :: rest) =
      (role, t.withoutLocals (ofType && role == some .body)) ::
        partsWithoutLocals false ofType rest := by
  rw [partsWithoutLocals]
  exact if_neg Bool.false_ne_true

/-- The entries of a type, by its name. -/
def entriesNamed (ctx : Context) (declared : DeclarationKind) (t name : Tree) :
    List OutlineEntry :=
  typeOf ctx declared t name ++ bodyEntries
    { ctx with above := joinNames ctx.above (name.text ctx.source), scope := t.span,
               topLevel := false } t.parts

theorem entriesOf_type {declared : DeclarationKind} (ctx : Context) (t : Tree)
    (h : DeclarationKind.ofType? t.kind = some declared) :
    entriesOf ctx t = ((t.child? .name).map (entriesNamed ctx declared t)).getD [] := by
  obtain ⟨kind, span, parts⟩ := t
  have hkind : DeclarationKind.ofType? kind = some declared := h
  rw [entriesOf.eq_def]
  simp only [hkind]
  cases (node kind span parts).child? .name <;> rfl

theorem unmoved_entriesNamed (ctx : Context) (declared : DeclarationKind) (t : Tree) :
    Unmoved (entriesNamed ctx declared t) := by
  intro isBody name
  simp only [entriesNamed, typeOf, text_withoutLocals, span_withoutLocals]

/-- The parts of what holds no statements are all kept. -/
theorem withoutLocals_of_not_holdsStatements {kind : Kind} (h : kind.holdsStatements = false)
    (isBody : Bool) (span : Span) (parts : List (Option Role × Tree)) :
    (node kind span parts).withoutLocals isBody =
      .node kind span (partsWithoutLocals false (DeclarationKind.ofType? kind).isSome parts) := by
  rw [withoutLocals, h, Bool.and_false]

mutual

/-- **What a member declares** has nothing to do with local types, -/
theorem entriesOf_withoutLocals (ctx : Context) (isBody : Bool) : ∀ t : Tree,
    entriesOf ctx (t.withoutLocals isBody) = entriesOf ctx t
  | .node kind span parts => by
    have hmethod := unmoved_methodOf ctx isBody (.node kind span parts)
    have hfields := unmoved_fieldsOf ctx isBody (.node kind span parts)
    have hparameters := unmoved_typeParametersOf ctx.source isBody (.node kind span parts)
    cases hkind : DeclarationKind.ofType? kind with
    | some declared =>
      have hstatements : kind.holdsStatements = false := by
        cases kind <;> first | rfl | cases hkind
      have hbody (inner : Context) := bodyEntries_withoutLocals inner parts
      have hsame : entriesNamed ctx declared ((node kind span parts).withoutLocals isBody) =
          entriesNamed ctx declared (.node kind span parts) := by
        funext name
        rw [entriesNamed, entriesNamed, typeOf, typeOf, hparameters, span_withoutLocals,
          withoutLocals_of_not_holdsStatements hstatements, hkind, Option.isSome_some]
        simp only [Tree.parts, hbody]
      rw [entriesOf_type ctx _ (by rwa [kind_withoutLocals]), hsame,
        map_child?_withoutLocals (unmoved_entriesNamed ctx declared _),
        entriesOf_type ctx (.node kind span parts) hkind]
    | none =>
      by_cases hmembers : kind = .enumBodyDeclarations
      · subst hmembers
        rw [withoutLocals_of_not_holdsStatements rfl, entriesOf, entriesOf]
        exact memberEntries_withoutLocals _ _ parts
      · rw [withoutLocals] at hmethod hfields ⊢
        rw [entriesOf.eq_def, entriesOf.eq_def ctx (.node kind span parts)]
        simp only [hkind] at hmethod hfields ⊢
        split
        · exact hmethod
        · exact hmethod
        · exact hfields
        · exact hfields
        · exact absurd rfl hmembers
        · rfl

/-- and neither has what the body of a type does, -/
theorem bodyEntries_withoutLocals (ctx : Context) : ∀ parts : List (Option Role × Tree),
    bodyEntries ctx (partsWithoutLocals false true parts) = bodyEntries ctx parts
  | [] => by rw [partsWithoutLocals]
  | (role, .node kind span inner) :: rest => by
    rw [partsWithoutLocals_cons, withoutLocals, bodyEntries, bodyEntries]
    split
    case isTrue hbody =>
      subst hbody
      exact memberEntries_withoutLocals ctx _ inner
    case isFalse => exact bodyEntries_withoutLocals ctx rest

/-- nor what any members do. -/
theorem memberEntries_withoutLocals (ctx : Context) (ofType : Bool) :
    ∀ parts : List (Option Role × Tree),
      memberEntries ctx (partsWithoutLocals false ofType parts) = memberEntries ctx parts
  | [] => by rw [partsWithoutLocals]
  | (role, t) :: rest => by
    rw [partsWithoutLocals_cons, memberEntries, memberEntries, kind_withoutLocals,
      entriesOf_withoutLocals ctx _ t, memberEntries_withoutLocals ctx _ rest]

end

/-! ### What a file says -/

theorem unmoved_qualifiedName? (source : String) : Unmoved (qualifiedName? source) := by
  refine map_find?_withoutLocals (q := fun k => k = .identifier ∨ k = .scopedIdentifier) ?_ ?_
  · intro t ht
    exact decide_eq_false fun h => h.elim (ne_of_isType rfl ht) (ne_of_isType rfl ht)
  · intro isBody t
    simp only [text_withoutLocals]

/-- A child of a kind that declares no type is kept. -/
theorem mem_kinds_withoutLocals {k : Kind} (hk : DeclarationKind.ofType? k = none) (isBody : Bool)
    (t : Tree) :
    k ∈ (t.withoutLocals isBody).children.map Tree.kind ↔ k ∈ t.children.map Tree.kind := by
  have hmem : ∀ t : Tree, k ∈ t.children.map Tree.kind ↔
      t.parts.filterMap (fun p => if p.2.kind = k then some k else none) ≠ [] := by
    intro t
    rw [children, List.map_map, List.mem_map, Ne, List.filterMap_eq_nil_iff]
    simp
  rw [hmem, hmem, filterMap_parts_withoutLocals]
  · intro role isBody t
    simp only [kind_withoutLocals]
  · intro t ht
    exact if_neg (ne_of_isType hk ht)

theorem unmoved_importOf? (source : String) : Unmoved (importOf? source) := by
  intro isBody t
  rw [importOf?, importOf?, unmoved_qualifiedName?]
  simp only [mem_kinds_withoutLocals (k := .asterisk) rfl,
    mem_kinds_withoutLocals (k := .sign "static") rfl]

/-- An outline without the names that are used. -/
def withoutUses (o : Outline) : Outline := { o with uses := [] }

/-- **What a file says of names** has nothing to do with local types. -/
theorem withoutUses_ofTree_withoutLocals (path : Path) (source : String) (root : Tree) :
    (ofTree path source (root.withoutLocals true)).withoutUses =
      (ofTree path source root).withoutUses := by
  have hpackage : packageOf source (root.withoutLocals true).namedChildren =
      packageOf source root.namedChildren := by
    rw [packageOf, packageOf, filterMap_namedChildren_withoutLocals
      (q := fun k => k = .packageDeclaration)
      (fun t ht => decide_eq_false (ne_of_isType rfl ht)) (unmoved_qualifiedName? source)]
  have himports := filterMap_namedChildren_withoutLocals (q := fun k => k = .importDeclaration)
    (fun t ht => decide_eq_false (ne_of_isType rfl ht)) (unmoved_importOf? source) true root
  have hentries (ctx : Context) : memberEntries ctx (root.withoutLocals true).parts =
      memberEntries ctx root.parts := by
    obtain ⟨kind, span, parts⟩ := root
    rw [withoutLocals]
    exact memberEntries_withoutLocals ctx _ parts
  simp only [ofTree, withoutUses, hpackage, himports, hentries]

end Outline

/-! ### What names stand for -/

namespace Resolution

/-- **What a name stands for** is told without the names that are used. -/
theorem ofName_withoutUses (outlines : List Outline) (o : Outline) (name : String)
    (place : Span) :
    ofName (outlines.map Outline.withoutUses) o.withoutUses name place =
      ofName outlines o name place := by
  have htop (package simple : String) : topLevel? (outlines.map Outline.withoutUses) package simple =
      topLevel? outlines package simple := by
    rw [topLevel?, topLevel?, List.filter_map, List.findSome?_map]
    rfl
  have hproject (fullName : String) : isProjectType (outlines.map Outline.withoutUses) fullName =
      isProjectType outlines fullName := by
    rw [isProjectType, isProjectType, List.any_map]
    rfl
  have hcandidates (simple : String) :
      candidates (outlines.map Outline.withoutUses) o.withoutUses simple =
        candidates outlines o simple := by
    simp only [candidates, hproject]
    rfl
  have hsimple (simple : String) :
      ofSimple (outlines.map Outline.withoutUses) o.withoutUses simple place =
        ofSimple outlines o simple place := by
    simp only [ofSimple, htop, hcandidates]
    rfl
  simp only [ofName, hsimple]

end Resolution

/-- A unit without the types that blocks declare. -/
def SourceUnit.withoutLocals (u : SourceUnit) : SourceUnit :=
  { u with content := match u.content with
      | .java tree => .java (tree.withoutLocals true)
      | other => other }

namespace SymbolTable

theorem withoutUses_outline?_withoutLocals (u : SourceUnit) :
    (outline? u.withoutLocals).map Outline.withoutUses = (outline? u).map Outline.withoutUses := by
  obtain ⟨path, language, encoding, text, content⟩ := u
  cases content with
  | java tree =>
    exact congrArg some (Outline.withoutUses_ofTree_withoutLocals path text tree)
  | plain => rfl
  | failed error => rfl

theorem withoutUses_outlines_withoutLocals (units : List SourceUnit) :
    (outlines (units.map SourceUnit.withoutLocals)).map Outline.withoutUses =
      (outlines units).map Outline.withoutUses := by
  rw [outlines, outlines, List.filterMap_map, List.map_filterMap, List.map_filterMap]
  exact List.filterMap_congr fun u _ => withoutUses_outline?_withoutLocals u

/-- **A table resolves names as if no block declared a type**: what a
reference stands for is what its name stands for, at its place, in the
project without these types. -/
theorem resolution_withoutLocals (units : List SourceUnit) (path : Path) :
    ∀ r ∈ (build units).references path, ∃ u ∈ units, u.path.same path ∧
      ∃ o, outline? u.withoutLocals = some o ∧ r.resolution =
        Resolution.ofName (outlines (units.map SourceUnit.withoutLocals)) o r.name r.span := by
  intro r hr
  rw [references_build] at hr
  cases hlast : ((outlines units).filter fun o => o.path.same path).getLast? with
  | none =>
    rw [hlast] at hr
    cases hr
  | some o =>
    rw [hlast, Option.map_some, Option.getD_some] at hr
    obtain ⟨ho, hpath⟩ := List.mem_filter.1 (List.mem_of_getLast? hlast)
    obtain ⟨u, hu, huo⟩ := mem_outlines.1 ho
    have hsame := withoutUses_outline?_withoutLocals u
    rw [huo, Option.map_some, Option.map_eq_some_iff] at hsame
    obtain ⟨o', ho', hoo'⟩ := hsame
    rw [path_of_outline? huo] at hpath
    refine ⟨u, hu, hpath, o', ho', ?_⟩
    rw [Reference.resolution_of_mem hr, ← Resolution.ofName_withoutUses (outlines units),
      ← Resolution.ofName_withoutUses (outlines (units.map _)), hoo',
      withoutUses_outlines_withoutLocals]

/-- A file with a class of its own in a block, and an import of that name. -/
def localRandom : SourceUnit := .ofJava "A.java"
  "import java.util.Random;class A\x7bvoid f()\x7bclass Random\x7b\x7dnew Random();\x7d\x7d"

/-- The name stands for the imported type, as it does without the class. -/
theorem resolution_withoutLocals_localRandom :
    ∃ r ∈ (build [localRandom]).references localRandom.path,
      r.resolution = .type "java.util.Random" ∧
      ∃ u ∈ [localRandom], u.path.same localRandom.path ∧
        ∃ o, outline? u.withoutLocals = some o ∧ r.resolution = Resolution.ofName
          (outlines ([localRandom].map SourceUnit.withoutLocals)) o r.name r.span := by
  have hknown : ∃ r ∈ (build [localRandom]).references localRandom.path,
      r.resolution = .type "java.util.Random" := by decide +kernel
  obtain ⟨r, hr, hrandom⟩ := hknown
  exact ⟨r, hr, hrandom, resolution_withoutLocals [localRandom] localRandom.path r hr⟩

/-! ### What that means for shadowing -/

/-- The tree declares a type of a name. -/
def declaresType (source name : String) (t : Java.Tree) : Bool :=
  t.isType && (t.child? .name).map (fun c => c.text source) == some name

/-- **A reference is captured by a local type**: it stands behind the type, in
the block that declares it, and nothing else there declares the name. -/
structure Captured (source : String) (block declared : Java.Tree) (r : Reference) : Prop where
  statements : block.kind.holdsStatements
  mem : declared ∈ block.namedChildren
  named : declaresType source r.name declared
  behind : declared.span.stop ≤ r.span.start
  inside : r.span.stop ≤ block.span.stop
  alone : block.preorder.countP (declaresType source r.name) = 1

/-- A name stands for a type that is looked up outside of the file: for one
of an import, of the package or of an import on demand. -/
def StandsForOther (outlines : List Outline) (o : Outline) (r : Reference) : Prop :=
  ∃ fullName, r.resolution = .type fullName ∧
    (o.imported? r.name = some fullName ∨
      Resolution.topLevel? outlines o.package r.name = some fullName ∨
      fullName ∈ Resolution.candidates outlines o r.name)

/-- Local types shadow the types of other files in a project. -/
def LocalsShadow (units : List SourceUnit) : Prop :=
  ∀ u ∈ units, ∀ root, u.tree? = some root → ∀ o, outline? u = some o →
    ∀ block ∈ root.preorder, ∀ declared, ∀ r ∈ (build units).references u.path,
      Captured u.text block declared r → ¬ StandsForOther (outlines units) o r

/-- The object is one of the local class, but its type is taken for the one
that is imported. -/
theorem not_shadowed_localRandom : ¬ LocalsShadow [localRandom] := by
  intro hshadow
  have hfound : localRandom.tree?.any fun root => root.preorder.any fun block =>
      block.kind.holdsStatements && block.namedChildren.any fun declared =>
        ((build [localRandom]).references localRandom.path).any fun r =>
          declaresType localRandom.text r.name declared &&
            (declared.span.stop ≤ r.span.start && r.span.stop ≤ block.span.stop) &&
            (block.preorder.countP (declaresType localRandom.text r.name) == 1 &&
              (r.name == "Random" && r.resolution == .type "java.util.Random")) := by
    decide +kernel
  have himported : (outline? localRandom).map (fun o => o.imported? "Random") =
      some (some "java.util.Random") := by decide +kernel
  obtain ⟨o, ho, himport⟩ := Option.map_eq_some_iff.1 himported
  simp only [Option.any_eq_true, List.any_eq_true, Bool.and_eq_true, beq_iff_eq,
    decide_eq_true_eq] at hfound
  obtain ⟨root, hroot, block, hblock, hstatements, declared, hdeclared, r, hr, ⟨hnamed, hbehind,
    hinside⟩, halone, hname, hresolution⟩ := hfound
  refine hshadow localRandom List.mem_cons_self root hroot o ho block hblock declared r hr
    ⟨hstatements, hdeclared, hnamed, hbehind, hinside, halone⟩ ?_
  exact ⟨"java.util.Random", hresolution, Or.inl (hname ▸ himport)⟩

end SymbolTable

end Remedy
