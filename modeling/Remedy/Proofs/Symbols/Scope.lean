import Mathlib
import Remedy.Proofs.Runs
import Remedy.Symbols.Table
/-!
# What a name sees of a project

A name is looked up in its own file first, and the other files answer two
questions only: whether a package has a type of a simple name, and whether
there is a type of a full name. The full name of a top-level type is told by
its package and its simple name (`Outline.wellNamed_ofTree`), so it is no
matter which file declares it (`topLevel?_eq_some_iff`). The candidates of a
name stand in strict order, and which ones they are depends on nothing but
these answers (`mem_candidates`).
-/

namespace Remedy

/-! ## The names of top-level types -/

namespace Outline

/-- A top-level type is called after the package. -/
def WellNamed (o : Outline) : Prop :=
  ∀ t ∈ o.types, t.topLevel → t.fullName = joinNames o.package t.simple

/-- The types of an outline are among its entries. -/
theorem mem_types {o : Outline} {t : LocalType} : t ∈ o.types ↔ .localType t ∈ o.entries := by
  rw [types, List.mem_filterMap]
  constructor
  · rintro ⟨e, he, ht⟩
    split at ht
    · cases ht
      exact he
    · cases ht
  · intro h
    exact ⟨_, h, rfl⟩

/-- Entries in which a top-level type is called after what stands above, and
there is none unless the members are those of a file. -/
def NamedIn (ctx : Context) (entries : List OutlineEntry) : Prop :=
  ∀ t : LocalType, .localType t ∈ entries → t.topLevel →
    ctx.topLevel ∧ t.fullName = joinNames ctx.above t.simple

variable {ctx : Context} {xs ys : List OutlineEntry}

theorem NamedIn.append (hxs : NamedIn ctx xs) (hys : NamedIn ctx ys) : NamedIn ctx (xs ++ ys) := by
  intro t ht
  rcases List.mem_append.1 ht with h | h
  · exact hxs t h
  · exact hys t h

/-- Where there are no types, none has a wrong name. -/
theorem namedIn_of_forall (h : ∀ t : LocalType, .localType t ∉ xs) : NamedIn ctx xs :=
  fun t ht => absurd ht (h t)

/-- Below a type there are no top-level types. -/
theorem NamedIn.outer {inner : Context} (h : NamedIn inner xs) (hinner : inner.topLevel = false) :
    NamedIn ctx xs := by
  intro t ht htop
  have hfalse := (h t ht htop).1
  rw [hinner] at hfalse
  cases hfalse

theorem localType_notMem_typeParametersOf (source : String) (t : Java.Tree) (d : LocalType) :
    .localType d ∉ typeParametersOf source t := by
  intro hmem
  rw [typeParametersOf] at hmem
  split at hmem
  · cases hmem
  · obtain ⟨p, -, hp⟩ := List.mem_filterMap.1 hmem
    obtain ⟨name, -, hname⟩ := Option.map_eq_some_iff.1 hp
    cases hname

theorem localType_notMem_methodOf (ctx : Context) (t : Java.Tree) (d : LocalType) :
    .localType d ∉ methodOf ctx t := by
  intro hmem
  rcases List.mem_append.1 hmem with hparameter | hmethod
  · exact localType_notMem_typeParametersOf _ _ d hparameter
  · obtain ⟨name, -, hname⟩ := Option.map_eq_some_iff.1 (Option.mem_toList.1 hmethod)
    cases hname

theorem localType_notMem_fieldsOf (ctx : Context) (t : Java.Tree) (d : LocalType) :
    .localType d ∉ fieldsOf ctx t := by
  intro hmem
  obtain ⟨f, -, hf⟩ := List.mem_filterMap.1 hmem
  obtain ⟨name, -, hname⟩ := Option.map_eq_some_iff.1 hf
  cases hname

theorem namedIn_typeOf (kind : DeclarationKind) (t name : Java.Tree) :
    NamedIn ctx (typeOf ctx kind t name) := by
  refine (namedIn_of_forall (localType_notMem_typeParametersOf ctx.source t)).append
    fun declared hmem htop => ?_
  rcases List.mem_pair.1 hmem with h | h
  · cases h
    exact ⟨htop, rfl⟩
  · cases h

mutual

/-- Entries of a member are well named, -/
theorem namedIn_entriesOf (ctx : Context) : ∀ t : Java.Tree, NamedIn ctx (entriesOf ctx t)
  | .node kind span parts => by
    rw [entriesOf.eq_def]
    dsimp only
    split
    case h_1 kind _ =>
      split
      case h_1 => exact namedIn_of_forall fun _ => List.not_mem_nil
      case h_2 name _ =>
        exact (namedIn_typeOf kind _ name).append ((namedIn_bodyEntries _ parts).outer rfl)
    case h_2 =>
      split
      · exact namedIn_of_forall (localType_notMem_methodOf ctx _)
      · exact namedIn_of_forall (localType_notMem_methodOf ctx _)
      · exact namedIn_of_forall (localType_notMem_fieldsOf ctx _)
      · exact namedIn_of_forall (localType_notMem_fieldsOf ctx _)
      · exact (namedIn_memberEntries _ parts).outer rfl
      · exact namedIn_of_forall fun _ => List.not_mem_nil

/-- and so are those of the body of a type, -/
theorem namedIn_bodyEntries (ctx : Context) :
    ∀ parts : List (Option Java.Role × Java.Tree), NamedIn ctx (bodyEntries ctx parts)
  | [] => by
    rw [bodyEntries]
    exact namedIn_of_forall fun _ => List.not_mem_nil
  | (role, .node _ _ inner) :: rest => by
    rw [bodyEntries]
    split
    · exact namedIn_memberEntries ctx inner
    · exact namedIn_bodyEntries ctx rest

/-- and those of any members. -/
theorem namedIn_memberEntries (ctx : Context) :
    ∀ parts : List (Option Java.Role × Java.Tree), NamedIn ctx (memberEntries ctx parts)
  | [] => by
    rw [memberEntries]
    exact namedIn_of_forall fun _ => List.not_mem_nil
  | (_, t) :: rest => by
    rw [memberEntries]
    refine NamedIn.append ?_ (namedIn_memberEntries ctx rest)
    split
    · exact namedIn_entriesOf ctx t
    · exact namedIn_of_forall fun _ => List.not_mem_nil

end

/-- **The outline of a file is well named.** -/
theorem wellNamed_ofTree (path : Path) (source : String) (root : Java.Tree) :
    (ofTree path source root).WellNamed := by
  intro t ht htop
  exact (namedIn_memberEntries _ _ t (mem_types.1 ht) htop).2

end Outline

namespace Resolution

variable {outlines others : List Outline} {o : Outline} {package simple name fullName : String}
variable {s t : String} {ts : List String}

/-! ## Two questions to a project -/

/-- A package of the project has a top-level type of a simple name. -/
def Declares (outlines : List Outline) (package simple : String) : Prop :=
  ∃ o ∈ outlines, o.package = package ∧ ∃ t ∈ o.types, t.topLevel ∧ t.simple = simple

/-- **What a package has by a simple name**: the type that is called after
both, if any file declares it. -/
theorem topLevel?_eq_some_iff (hnamed : ∀ o ∈ outlines, o.WellNamed) :
    topLevel? outlines package simple = some fullName ↔
      Declares outlines package simple ∧ fullName = Outline.joinNames package simple := by
  have hfull : ∀ {o : Outline} {found : LocalType}, o ∈ outlines → o.package = package →
      o.types.find? (fun t => t.topLevel && t.simple = simple) = some found →
        found.topLevel ∧ found.simple = simple ∧
          found.fullName = Outline.joinNames package simple := by
    intro o found ho hpackage hfound
    have hboth := List.find?_some hfound
    rw [Bool.and_eq_true, decide_eq_true_eq] at hboth
    refine ⟨hboth.1, hboth.2, ?_⟩
    rw [hnamed o ho found (List.mem_of_find?_eq_some hfound) hboth.1, hpackage, hboth.2]
  rw [topLevel?]
  constructor
  · intro h
    obtain ⟨o, ho, hname⟩ := List.exists_of_findSome?_eq_some h
    obtain ⟨found, hfound, rfl⟩ := Option.map_eq_some_iff.1 hname
    obtain ⟨hmem, hpackage⟩ := List.mem_filter.1 ho
    rw [decide_eq_true_eq] at hpackage
    obtain ⟨htop, hsimple, hnames⟩ := hfull hmem hpackage hfound
    exact ⟨⟨o, hmem, hpackage, found, List.mem_of_find?_eq_some hfound, htop, hsimple⟩, hnames⟩
  · rintro ⟨⟨o, ho, hpackage, t, ht, htop, hsimple⟩, rfl⟩
    cases hsearch : (outlines.filter (·.package = package)).findSome? fun o =>
        (o.types.find? fun t => t.topLevel && t.simple = simple).map LocalType.fullName with
    | some fullName =>
      obtain ⟨o, ho, hname⟩ := List.exists_of_findSome?_eq_some hsearch
      obtain ⟨found, hfound, rfl⟩ := Option.map_eq_some_iff.1 hname
      obtain ⟨hmem, hpackage⟩ := List.mem_filter.1 ho
      rw [(hfull hmem (of_decide_eq_true hpackage) hfound).2.2]
    | none =>
      -- the file that declares the type would have been found
      have hmem : o ∈ outlines.filter (·.package = package) :=
        List.mem_filter.2 ⟨ho, decide_eq_true hpackage⟩
      have hnone := Option.map_eq_none_iff.1 (List.findSome?_eq_none_iff.1 hsearch o hmem)
      have hcontra := List.find?_eq_none.1 hnone t ht
      simp only [htop, hsimple, decide_true, Bool.and_self, not_true_eq_false] at hcontra

theorem topLevel?_eq_none_iff (hnamed : ∀ o ∈ outlines, o.WellNamed) :
    topLevel? outlines package simple = none ↔ ¬ Declares outlines package simple := by
  rw [Option.eq_none_iff_forall_ne_some]
  constructor
  · intro hnone hdeclares
    exact hnone _ ((topLevel?_eq_some_iff hnamed).2 ⟨hdeclares, rfl⟩)
  · intro hnot fullName h
    exact hnot ((topLevel?_eq_some_iff hnamed).1 h).1

theorem isProjectType_iff : isProjectType outlines fullName ↔
    ∃ o ∈ outlines, ∃ t ∈ o.types, t.fullName = fullName := by
  simp only [isProjectType, List.any_eq_true, decide_eq_true_eq]

/-! ## Candidates -/

theorem mem_insertText : t ∈ insertText s ts ↔ t = s ∨ t ∈ ts := by
  induction ts with
  | nil => exact List.mem_cons
  | cons u ts ih =>
    rw [insertText]
    split
    case isTrue h =>
      rw [h]
      simp only [List.mem_cons]
      tauto
    case isFalse =>
      split
      · exact List.mem_cons
      · simp only [List.mem_cons, ih]
        tauto

/-- A text that is put in its place keeps the order strict. -/
theorem pairwise_insertText (h : ts.Pairwise (· < ·)) : (insertText s ts).Pairwise (· < ·) := by
  induction ts with
  | nil => exact List.pairwise_singleton _ _
  | cons u ts ih =>
    obtain ⟨hfirst, hrest⟩ := List.pairwise_cons.1 h
    rw [insertText]
    split
    case isTrue => exact h
    case isFalse hne =>
      split
      case isTrue hlt =>
        refine List.pairwise_cons.2 ⟨fun t ht => ?_, h⟩
        rcases List.mem_cons.1 ht with rfl | hmem
        · exact hlt
        · exact hlt.trans (hfirst t hmem)
      case isFalse hnlt =>
        refine List.pairwise_cons.2 ⟨fun t ht => ?_, ih hrest⟩
        rcases mem_insertText.1 ht with rfl | hmem
        · exact lt_of_le_of_ne (not_lt.1 hnlt) (Ne.symm hne)
        · exact hfirst t hmem

/-- Texts in strict order, each once. -/
def ordered (texts : List String) : List String :=
  texts.foldl (fun done s => insertText s done) []

theorem mem_ordered {texts : List String} : t ∈ ordered texts ↔ t ∈ texts := by
  have hall : ∀ done, t ∈ texts.foldl (fun done s => insertText s done) done ↔
      t ∈ texts ∨ t ∈ done := by
    induction texts with
    | nil => simp
    | cons s texts ih =>
      intro done
      rw [List.foldl_cons, ih, mem_insertText, List.mem_cons]
      tauto
  rw [ordered, hall]
  simp

theorem pairwise_ordered (texts : List String) : (ordered texts).Pairwise (· < ·) := by
  have hall : ∀ done : List String, done.Pairwise (· < ·) →
      (texts.foldl (fun done s => insertText s done) done).Pairwise (· < ·) := by
    induction texts with
    | nil => exact fun _ h => h
    | cons s texts ih => exact fun done h => ih _ (pairwise_insertText h)
  exact hall [] List.Pairwise.nil

/-- **Texts in order are told by what they are.** -/
theorem ordered_congr {texts more : List String} (h : ∀ t, t ∈ texts ↔ t ∈ more) :
    ordered texts = ordered more := by
  have hnodup : ∀ texts, (ordered texts).Nodup := fun texts =>
    (pairwise_ordered texts).imp fun hlt => ne_of_lt hlt
  have hperm : (ordered texts).Perm (ordered more) := by
    rw [List.perm_ext_iff_of_nodup (hnodup texts) (hnodup more)]
    intro t
    rw [mem_ordered, mem_ordered, h]
  exact hperm.eq_of_pairwise' (pairwise_ordered texts) (pairwise_ordered more)

/-- A package offers a name: the project or the platform has the type. -/
def Offers (outlines : List Outline) (package name : String) : Prop :=
  isProjectType outlines (Outline.joinNames package name) ∨
    Platform.contains? package name = some true

/-- **The candidates of a name** are what the packages that are imported on
demand and `java.lang` offer for it. -/
theorem mem_candidates : fullName ∈ candidates outlines o name ↔
    ∃ package ∈ o.onDemand ++ ["java.lang"], Offers outlines package name ∧
      fullName = Outline.joinNames package name := by
  rw [candidates, ← ordered, mem_ordered, List.mem_filterMap]
  refine exists_congr fun package => and_congr_right fun _ => ?_
  rw [Option.ite_none_right_eq_some, Option.some.injEq, Bool.or_eq_true, decide_eq_true_eq]
  exact and_congr_right fun _ => eq_comm

theorem nodup_candidates : (candidates outlines o name).Nodup := by
  rw [candidates, ← ordered]
  exact (pairwise_ordered _).imp fun hlt => ne_of_lt hlt

/-! ## From the own file to the project -/

/-- What a name stands for by its own file. -/
def own? (o : Outline) (name : String) (place : Span) : Option Resolution :=
  if o.typeParameters.any fun p => p.name = name && p.scope.contains place then
    some .typeParameter
  else (((localType? o name place).map LocalType.fullName).or (o.imported? name)).map .type

/-- What a name stands for by its candidates. -/
def ofCandidates : List String → Resolution
  | [] => .gap .unresolved
  | [fullName] => .type fullName
  | several => .gap (.ambiguous several)

/-- What a name stands for in the package of its file, or by its candidates. -/
def ofProject (outlines : List Outline) (o : Outline) (name : String) : Resolution :=
  match topLevel? outlines o.package name with
  | some fullName => .type fullName
  | none => ofCandidates (candidates outlines o name)

/-- **The own file comes first.** -/
theorem ofSimple_eq (outlines : List Outline) (o : Outline) (name : String) (place : Span) :
    ofSimple outlines o name place = (own? o name place).getD (ofProject outlines o name) := by
  rw [ofSimple, own?]
  split
  · rfl
  · cases localType? o name place with
    | some t => rfl
    | none =>
      cases o.imported? name with
      | some fullName => rfl
      | none =>
        simp only [Option.map_none, Option.or_none, Option.getD_none]
        rw [ofProject]
        cases topLevel? outlines o.package name with
        | some fullName => rfl
        | none =>
          simp only
          rcases candidates outlines o name with _ | ⟨fullName, _ | ⟨other, more⟩⟩ <;> rfl

/-- The part of a name ahead of its first point. -/
def firstPart (name : String) : String := String.ofList (name.toList.takeWhile (· ≠ '.'))

/-- The part of a name from its first point on. -/
def laterPart (name : String) : String := String.ofList (name.toList.dropWhile (· ≠ '.'))

/-- What a name stands for when its first part stands for something. -/
def extend (later : String) : Resolution → Resolution
  | .type fullName => .type (fullName ++ later)
  | .typeParameter => .gap .unresolved
  | .gap reason => .gap reason

theorem laterPart_eq_empty_iff : laterPart name = "" ↔ name.toList.dropWhile (· ≠ '.') = [] := by
  rw [← String.toList_eq_nil_iff, laterPart, String.toList_ofList]

/-- A name without points is its first part. -/
theorem firstPart_eq_self (h : laterPart name = "") : firstPart name = name := by
  have hparts := @List.takeWhile_append_dropWhile _ (fun c => decide (c ≠ '.')) name.toList
  rw [laterPart_eq_empty_iff.1 h, List.append_nil] at hparts
  rw [firstPart, hparts, String.ofList_toList]

/-- **A name with points** is full already or stands for what its first part
leads to. -/
theorem ofName_eq (outlines : List Outline) (o : Outline) (name : String) (place : Span) :
    ofName outlines o name place =
      if laterPart name = "" then ofSimple outlines o name place
      else if (firstPart name).toList.head?.any Char.isLower then .type name
      else extend (laterPart name) (ofSimple outlines o (firstPart name) place) := by
  rw [ofName, drop_length_takeWhile, firstPart, String.toList_ofList]
  cases hlater : name.toList.dropWhile (· ≠ '.') with
  | nil => rw [if_pos (laterPart_eq_empty_iff.2 hlater)]
  | cons c later =>
    have hne : laterPart name ≠ "" := by
      rw [Ne, laterPart_eq_empty_iff, hlater]
      exact List.cons_ne_nil c later
    rw [if_neg hne, laterPart, hlater]
    dsimp only
    split
    · rfl
    · cases ofSimple outlines o (String.ofList (name.toList.takeWhile (· ≠ '.'))) place <;> rfl

end Resolution

end Remedy
