import Mathlib
import Remedy.Proofs.Symbols.References
/-!
# A project that grows

Files of other packages come in. What the own file of a name says is not
touched by them, and neither is its package, so all that can happen is that
imports on demand offer more for the name than before. A name that stood for
a type keeps it or becomes ambiguous, and only a name that stood for nothing
can come to stand for something (`SymbolTable.kept_of_addedTo`).
-/

namespace Remedy

namespace Resolution

variable {outlines others : List Outline} {o : Outline} {name rest : String} {place : Span}
variable {first before after : Resolution}

/-! ## What a name keeps -/

/-- **A name keeps what it stood for**: a type parameter and a type for good,
unless more than one type is offered for the first part of the name, of which
the one before is one. Where more than one was offered, all of them still
are. `first` is what the first part of the name stood for, and `rest` follows
that part. -/
inductive Kept (first : Resolution) (rest : String) : Resolution → Resolution → Prop where
  | typeParameter : Kept first rest .typeParameter .typeParameter
  | type (fullName : String) : Kept first rest (.type fullName) (.type fullName)
  | opened {bound : String} {offered : List String} (hfirst : first = .type bound)
    (hoffered : bound ∈ offered) :
    Kept first rest (.type (bound ++ rest)) (.gap (.ambiguous offered))
  | ambiguous {few many : List String} (hoffered : few ⊆ many) :
    Kept first rest (.gap (.ambiguous few)) (.gap (.ambiguous many))
  | unresolved (after : Resolution) : Kept first rest (.gap .unresolved) after

/-- What is for sure to be kept. -/
theorem Kept.refl (first : Resolution) (rest : String) : ∀ r, Kept first rest r r
  | .type fullName => .type fullName
  | .typeParameter => .typeParameter
  | .gap .unresolved => .unresolved _
  | .gap (.ambiguous _) => .ambiguous fun _ h => h

/-- **No name is bound to another type.** -/
theorem Kept.eq_of_type {a b : String} (h : Kept first rest before after)
    (hbefore : before = .type a) (hafter : after = .type b) : a = b := by
  cases h with
  | type fullName =>
    cases hbefore
    cases hafter
    rfl
  | opened => cases hafter
  | typeParameter | ambiguous | unresolved => cases hbefore

/-! ## Projects that grow -/

/-- **A project grows around a package**: it keeps its files, and those that
come in belong to other packages. -/
structure Grown (package : String) (outlines others : List Outline) : Prop where
  subset : outlines ⊆ others
  elsewhere : ∀ o ∈ others, o ∈ outlines ∨ o.package ≠ package

/-- The package has the types that it had. -/
theorem Grown.declares_iff {package simple : String} (h : Grown package outlines others) :
    Declares others package simple ↔ Declares outlines package simple := by
  constructor
  · rintro ⟨o, ho, hpackage, ht⟩
    rcases h.elsewhere o ho with hold | hnew
    · exact ⟨o, hold, hpackage, ht⟩
    · exact absurd hpackage hnew
  · rintro ⟨o, ho, hpackage, ht⟩
    exact ⟨o, h.subset ho, hpackage, ht⟩

/-- All that was offered is offered. -/
theorem candidates_subset (h : outlines ⊆ others) :
    candidates outlines o name ⊆ candidates others o name := by
  intro fullName hmem
  obtain ⟨package, hpackage, hoffers, hname⟩ := mem_candidates.1 hmem
  refine mem_candidates.2 ⟨package, hpackage, ?_, hname⟩
  rcases hoffers with hproject | hplatform
  · obtain ⟨o, ho, ht⟩ := isProjectType_iff.1 hproject
    exact Or.inl (isProjectType_iff.2 ⟨o, h ho, ht⟩)
  · exact Or.inr hplatform

/-- More candidates leave a name what it stood for. -/
theorem kept_ofCandidates {few many : List String} (hsubset : few ⊆ many) (hnodup : few.Nodup) :
    Kept (ofCandidates few) "" (ofCandidates few) (ofCandidates many) := by
  cases few with
  | nil => exact .unresolved _
  | cons a few =>
    have ha : a ∈ many := hsubset List.mem_cons_self
    cases few with
    | nil =>
      cases many with
      | nil => cases ha
      | cons b many =>
        cases many with
        | nil =>
          rw [List.mem_singleton.1 ha]
          exact .refl _ _ _
        | cons c many =>
          have hopened := @Kept.opened (.type a) "" a (b :: c :: many) rfl ha
          rwa [String.append_empty] at hopened
    | cons b few =>
      have hb : b ∈ many := hsubset (List.mem_cons_of_mem a List.mem_cons_self)
      have hne : a ≠ b := fun hab => (List.nodup_cons.1 hnodup).1 (hab ▸ List.mem_cons_self)
      -- two candidates that differ do not fit in a list of one
      cases many with
      | nil => cases ha
      | cons c many =>
        cases many with
        | nil => exact absurd ((List.mem_singleton.1 ha).trans (List.mem_singleton.1 hb).symm) hne
        | cons d many => exact .ambiguous hsubset

/-- A name without points keeps what it stood for, -/
theorem kept_ofSimple (h : Grown o.package outlines others)
    (hnamed : ∀ o ∈ outlines, o.WellNamed) (hothers : ∀ o ∈ others, o.WellNamed) :
    Kept (ofSimple outlines o name place) "" (ofSimple outlines o name place)
      (ofSimple others o name place) := by
  rw [ofSimple_eq, ofSimple_eq]
  cases own? o name place with
  | some r => exact .refl _ _ r
  | none =>
    simp only [Option.getD_none]
    rw [ofProject, ofProject]
    cases htop : topLevel? outlines o.package name with
    | some fullName =>
      have hsame : topLevel? others o.package name = some fullName := by
        rwa [topLevel?_eq_some_iff hothers, h.declares_iff, ← topLevel?_eq_some_iff hnamed]
      simp only [hsame]
      exact .refl _ _ _
    | none =>
      have hsame : topLevel? others o.package name = none := by
        rwa [topLevel?_eq_none_iff hothers, h.declares_iff, ← topLevel?_eq_none_iff hnamed]
      simp only [hsame]
      exact kept_ofCandidates (candidates_subset h.subset) nodup_candidates

/-- and what follows its first part changes nothing in this. -/
theorem Kept.extend {later : String} (h : Kept first "" before after) (hfirst : first = before) :
    Kept before later (before.extend later) (after.extend later) := by
  cases h with
  | typeParameter | unresolved => exact .unresolved _
  | type fullName => exact .refl _ _ _
  | @opened bound offered hbound hoffered =>
    rw [String.append_empty]
    exact .opened rfl hoffered
  | ambiguous hoffered => exact .ambiguous hoffered

/-- **A name keeps what it stood for** when the project grows around the
package of its file. -/
theorem kept_ofName (h : Grown o.package outlines others)
    (hnamed : ∀ o ∈ outlines, o.WellNamed) (hothers : ∀ o ∈ others, o.WellNamed) :
    Kept (ofSimple outlines o (firstPart name) place) (laterPart name)
      (ofName outlines o name place) (ofName others o name place) := by
  rw [ofName_eq, ofName_eq]
  by_cases hlater : laterPart name = ""
  · rw [if_pos hlater, if_pos hlater, firstPart_eq_self hlater, hlater]
    exact kept_ofSimple h hnamed hothers
  · rw [if_neg hlater, if_neg hlater]
    split
    · exact .refl _ _ _
    · exact (kept_ofSimple h hnamed hothers).extend rfl

end Resolution

/-! ## Tables -/

/-- **A reference is kept**: it stands where it stood, and its name keeps
what it stood for. -/
structure Reference.Kept (outlines : List Outline) (o : Outline) (before after : Reference) :
    Prop where
  name : after.name = before.name
  span : after.span = before.span
  resolution : Resolution.Kept
    (Resolution.ofSimple outlines o (Resolution.firstPart before.name) before.span)
    (Resolution.laterPart before.name) before.resolution after.resolution

/-- **Files are added to a project**: they come in anywhere between the
others, at new paths. -/
structure AddedTo (units more all : List SourceUnit) : Prop where
  kept : units.Sublist all
  perm : all.Perm (units ++ more)
  newPaths : ∀ u ∈ more, ∀ v ∈ units, ¬ u.path.same v.path

namespace SymbolTable

variable {units more all before after : List SourceUnit} {u file : SourceUnit} {o : Outline}

/-- The files at the path of a file are those that were there. -/
theorem filter_outlines_of_addedTo (h : AddedTo units more all) (hu : u ∈ units) :
    (outlines all).filter (fun o => o.path.same u.path) =
      (outlines units).filter fun o => o.path.same u.path := by
  have hsub : ((outlines units).filter fun o => o.path.same u.path).Sublist
      ((outlines all).filter fun o => o.path.same u.path) :=
    (h.kept.filterMap outline?).filter _
  have hnone : (outlines more).filter (fun o => o.path.same u.path) = [] := by
    rw [List.filter_eq_nil_iff]
    intro o ho
    obtain ⟨v, hv, hvo⟩ := mem_outlines.1 ho
    rw [path_of_outline? hvo]
    exact h.newPaths v hv u hu
  have hperm : ((outlines all).filter fun o => o.path.same u.path).Perm
      ((outlines (units ++ more)).filter fun o => o.path.same u.path) :=
    (h.perm.filterMap outline?).filter _
  rw [outlines_append, List.filter_append, hnone, List.append_nil] at hperm
  have hlength := hperm.length_eq
  exact (hsub.eq_of_length hlength.symm).symm

/-- The last outline at the path of a file that no other one follows there. -/
theorem getLast?_filter_outlines
    (hlast : ∀ u ∈ after, u.tree?.isSome → ¬ u.path.same file.path)
    (ho : outline? file = some o) :
    ((outlines (before ++ file :: after)).filter fun o => o.path.same file.path).getLast? =
      some o := by
  have hself : o.path.same file.path := by
    rw [path_of_outline? ho, Path.same]
    exact beq_self_eq_true _
  have hfile : outlines (file :: after) = o :: outlines after := List.filterMap_cons_some ho
  have hnone : (outlines after).filter (fun o => o.path.same file.path) = [] := by
    rw [List.filter_eq_nil_iff]
    intro p hp
    obtain ⟨v, hv, hvp⟩ := mem_outlines.1 hp
    rw [path_of_outline? hvp]
    refine hlast v hv ?_
    rw [outline?] at hvp
    obtain ⟨tree, htree, -⟩ := Option.map_eq_some_iff.1 hvp
    rw [htree]
    rfl
  have hcut : (o :: outlines after).filter (fun o => o.path.same file.path) = [o] := by
    rw [List.filter_cons, if_pos hself, hnone]
  rw [outlines_append, hfile, List.filter_append, hcut, List.getLast?_concat]

/-- **Files of other packages never bind a name anew.** Whatever parsed files
are added to a project, at new paths and in packages other than the one of a
file, each reference of this file stands where it stood and keeps what it
stood for, and if it stood for a type and stands for one, it is the same. A
table has the references of the last file at a path, so this is about a file
that no other one follows at its path. -/
theorem kept_of_addedTo
    (hlast : ∀ u ∈ after, u.tree?.isSome → ¬ u.path.same file.path)
    (ho : outline? file = some o) (hadded : AddedTo (before ++ file :: after) more all)
    (hother : ∀ u ∈ more, ∀ p, outline? u = some p → p.package ≠ o.package) :
    List.Forall₂ (fun r s => Reference.Kept (outlines (before ++ file :: after)) o r s ∧
        ∀ a b, r.resolution = .type a → s.resolution = .type b → a = b)
      ((build (before ++ file :: after)).references file.path)
      ((build all).references file.path) := by
  generalize hunits : before ++ file :: after = units at hadded
  have hfile : file ∈ units := hunits ▸ List.mem_append_right _ List.mem_cons_self
  have hfound : ((outlines units).filter fun o => o.path.same file.path).getLast? = some o :=
    hunits ▸ getLast?_filter_outlines hlast ho
  have hgrown : Resolution.Grown o.package (outlines units) (outlines all) := by
    constructor
    case subset => exact (hadded.kept.filterMap outline?).subset
    case elsewhere =>
      intro p hp
      obtain ⟨v, hv, hvp⟩ := mem_outlines.1 hp
      rcases List.mem_append.1 (hadded.perm.mem_iff.1 hv) with hold | hnew
      · exact Or.inl (mem_outlines.2 ⟨v, hold, hvp⟩)
      · exact Or.inr (hother v hnew p hvp)
  rw [references_build, references_build, filter_outlines_of_addedTo hadded hfile, hfound]
  simp only [Option.map_some, Option.getD_some]
  rw [Reference.ofOutline_eq_map (outlines units) (outlines all), List.forall₂_map_right_iff,
    List.forall₂_same]
  intro r hr
  have hresolution : r.resolution = Resolution.ofName (outlines units) o r.name r.span := by
    rw [Reference.ofOutline_eq_map (outlines units) (outlines units)] at hr
    obtain ⟨s, -, rfl⟩ := List.mem_map.1 hr
    rfl
  have hkept := @Resolution.kept_ofName _ _ o r.name r.span hgrown wellNamed_outlines
    wellNamed_outlines
  rw [← hresolution] at hkept
  exact ⟨⟨rfl, rfl, hkept⟩, fun a b ha hb => hkept.eq_of_type ha hb⟩

/-- A file that imports two packages on demand, -/
def importing : SourceUnit := .ofJava "A.java" "import p.*;import q.*;class A extends B\x7b\x7d"

/-- a type in the first of them, -/
def inFirst : SourceUnit := .ofJava "p/B.java" "package p;class B\x7b\x7d"

/-- and one of the same simple name in the second. -/
def inSecond : SourceUnit := .ofJava "q/B.java" "package q;class B\x7b\x7d"

/-- With the second one in the project the name in the file is ambiguous. -/
theorem kept_of_addedTo_importing :
    AddedTo [importing, inFirst] [inSecond] [importing, inSecond, inFirst] ∧
    ((build [importing, inFirst]).references importing.path).map Reference.resolution =
      [.type "p.B"] ∧
    ((build [importing, inSecond, inFirst]).references importing.path).map
      Reference.resolution = [.gap (.ambiguous ["p.B", "q.B"])] ∧
    ∃ o, outline? importing = some o ∧
      List.Forall₂ (fun r s => Reference.Kept (outlines [importing, inFirst]) o r s ∧
          ∀ a b, r.resolution = .type a → s.resolution = .type b → a = b)
        ((build [importing, inFirst]).references importing.path)
        ((build [importing, inSecond, inFirst]).references importing.path) := by
  have hadded : AddedTo [importing, inFirst] [inSecond] [importing, inSecond, inFirst] :=
    ⟨(List.Sublist.cons _ (.refl _)).cons_cons _, .cons _ (.swap _ _ _), by decide +kernel⟩
  have hpackage : (outline? importing).map Outline.package = some "" := by decide +kernel
  have hsecond : (outline? inSecond).map Outline.package = some "q" := by decide +kernel
  obtain ⟨o, ho, hnone⟩ := Option.map_eq_some_iff.1 hpackage
  have hother : ∀ u ∈ [inSecond], ∀ p, outline? u = some p → p.package ≠ o.package := by
    intro u hu p hp
    rw [List.mem_singleton.1 hu] at hp
    rw [hp, Option.map_some, Option.some.injEq] at hsecond
    rw [hsecond, hnone]
    decide
  exact ⟨hadded, by decide +kernel, by decide +kernel, o, ho,
    @kept_of_addedTo _ _ [] _ _ _ (by decide +kernel) ho hadded hother⟩

end SymbolTable

end Remedy
