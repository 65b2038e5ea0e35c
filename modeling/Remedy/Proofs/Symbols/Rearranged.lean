import Mathlib
import Remedy.Proofs.Symbols.References
/-!
# A project in another order

What a name stands for depends on which outlines there are and not on their
order (`Resolution.ofName_congr`), although the types of all files are looked
through one after the other and the first one that fits counts. So if the
files of a project come in another order, and files without a tree come in
or go, its table answers all questions as before
(`SymbolTable.alike_of_rearranged`). It need not be the same table: where two
files declare one name, the declaration is that of the first.
-/

namespace Remedy

/-! ## Names -/

namespace Resolution

variable {outlines others : List Outline} {o : Outline} {package simple name fullName : String}
variable {place : Span}

theorem topLevel?_congr (h : ∀ o, o ∈ outlines ↔ o ∈ others)
    (hnamed : ∀ o ∈ outlines, o.WellNamed) :
    topLevel? outlines package simple = topLevel? others package simple := by
  have hothers : ∀ o ∈ others, o.WellNamed := fun o ho => hnamed o ((h o).2 ho)
  have hdeclares : Declares outlines package simple ↔ Declares others package simple :=
    exists_congr fun o => and_congr_left' (h o)
  ext fullName
  rw [topLevel?_eq_some_iff hnamed, topLevel?_eq_some_iff hothers, hdeclares]

theorem isProjectType_congr (h : ∀ o, o ∈ outlines ↔ o ∈ others) :
    isProjectType outlines fullName = isProjectType others fullName := by
  rw [Bool.eq_iff_iff, isProjectType_iff, isProjectType_iff]
  exact exists_congr fun o => and_congr_left' (h o)

theorem candidates_congr (h : ∀ o, o ∈ outlines ↔ o ∈ others) :
    candidates outlines o name = candidates others o name := by
  simp only [candidates, isProjectType_congr h]

theorem ofSimple_congr (h : ∀ o, o ∈ outlines ↔ o ∈ others)
    (hnamed : ∀ o ∈ outlines, o.WellNamed) :
    ofSimple outlines o name place = ofSimple others o name place := by
  rw [ofSimple_eq, ofSimple_eq, ofProject, ofProject, topLevel?_congr h hnamed,
    candidates_congr h]

/-- **What a name stands for** depends on which files there are, not on their
order. -/
theorem ofName_congr (h : ∀ o, o ∈ outlines ↔ o ∈ others)
    (hnamed : ∀ o ∈ outlines, o.WellNamed) :
    ofName outlines o name place = ofName others o name place := by
  rw [ofName_eq, ofName_eq, ofSimple_congr h hnamed, ofSimple_congr h hnamed]

end Resolution

theorem Reference.ofOutline_congr {outlines others : List Outline}
    (h : ∀ o, o ∈ outlines ↔ o ∈ others) (hnamed : ∀ o ∈ outlines, o.WellNamed) (o : Outline) :
    ofOutline outlines o = ofOutline others o := by
  simp only [ofOutline, Resolution.ofName_congr h hnamed]

/-! ## Tables -/

namespace SymbolTable

variable {units others : List SourceUnit} {path : Path} {refs : FileReferences}

/-- **Two tables are alike** if they answer all questions in the same way. A
table is asked for the references of a path and for its numbers, and for
nothing else. -/
structure Alike (table other : SymbolTable) : Prop where
  references : ∀ path, table.references path = other.references path
  stats : table.stats = other.stats

theorem Alike.referenceAt? {table other : SymbolTable} (h : table.Alike other) (path : Path)
    (span : Span) : table.referenceAt? path span = other.referenceAt? path span := by
  rw [SymbolTable.referenceAt?, h.references, SymbolTable.referenceAt?]

theorem Alike.gaps {table other : SymbolTable} (h : table.Alike other) (path : Path) :
    table.gaps path = other.gaps path := by
  rw [SymbolTable.gaps, h.references, SymbolTable.gaps]

/-! ### What a table counts -/

/-- The names of declarations are texts in order. -/
theorem map_name_insertDeclaration (d : Declaration) (done : List Declaration) :
    (insertDeclaration d done).map Declaration.name =
      Resolution.insertText d.name (done.map Declaration.name) := by
  induction done with
  | nil => rfl
  | cons e done ih =>
    rw [insertDeclaration, List.map_cons, Resolution.insertText]
    by_cases hsame : d.name = e.name
    · rw [if_pos hsame, if_pos hsame, List.map_cons]
    · rw [if_neg hsame, if_neg hsame]
      by_cases hlt : d.name < e.name
      · rw [if_pos hlt, if_pos hlt, List.map_cons, List.map_cons]
      · rw [if_neg hlt, if_neg hlt, List.map_cons, ih]

/-- The declarations of a project are told apart by their names. -/
theorem map_name_declarations (units : List SourceUnit) :
    (build units).declarations.map Declaration.name =
      Resolution.ordered (((outlines units).flatMap Outline.declarations).map
        Declaration.name) := by
  have hfold : ∀ (ds done : List Declaration),
      (ds.foldl (fun done d => insertDeclaration d done) done).map Declaration.name =
        (ds.map Declaration.name).foldl (fun done s => Resolution.insertText s done)
          (done.map Declaration.name) := by
    intro ds
    induction ds with
    | nil => exact fun _ => rfl
    | cons d ds ih =>
      intro done
      rw [List.foldl_cons, ih, map_name_insertDeclaration, List.map_cons, List.foldl_cons]
  exact hfold _ []

/-- A file at a new path is entered behind the others. -/
theorem insertFile_of_new {files : List (Path × FileReferences)}
    (h : ∀ e ∈ files, ¬ e.1.same path) : insertFile path refs files = files ++ [(path, refs)] := by
  induction files with
  | nil => rfl
  | cons e files ih =>
    rw [insertFile, if_neg (h e List.mem_cons_self),
      ih fun e he => h e (List.mem_cons_of_mem _ he), List.cons_append]

/-- **Files at paths of their own** are entered one by one. -/
theorem files_build
    (hapart : (outlines units).Pairwise fun o p => ¬ o.path.same p.path) :
    (build units).files =
      (outlines units).map fun o => (o.path, Reference.ofOutline (outlines units) o) := by
  have hfold : ∀ (refs : Outline → FileReferences) (os : List Outline)
      (done : List (Path × FileReferences)), os.Pairwise (fun o p => ¬ o.path.same p.path) →
      (∀ e ∈ done, ∀ o ∈ os, ¬ e.1.same o.path) →
      os.foldl (fun done o => insertFile o.path (refs o) done) done =
        done ++ os.map fun o => (o.path, refs o) := by
    intro refs os
    induction os with
    | nil => exact fun done _ _ => (List.append_nil done).symm
    | cons o os ih =>
      intro done hpairwise hnew
      obtain ⟨hfirst, hrest⟩ := List.pairwise_cons.1 hpairwise
      have hnext : ∀ e ∈ done ++ [(o.path, refs o)], ∀ p ∈ os, ¬ e.1.same p.path := by
        intro e he p hp
        rcases List.mem_append.1 he with hold | hown
        · exact hnew e hold p (List.mem_cons_of_mem _ hp)
        · rw [List.mem_singleton.1 hown]
          exact hfirst p hp
      rw [List.foldl_cons, insertFile_of_new fun e he => hnew e he o List.mem_cons_self,
        ih _ hrest hnext, List.append_assoc, List.map_cons, List.singleton_append]
  exact hfold _ _ [] hapart fun e he => by cases he

/-- At most one file is at a path, if all are at paths of their own. -/
theorem filter_path_perm {os ps : List Outline}
    (hapart : os.Pairwise fun o p => ¬ o.path.same p.path) (hperm : os.Perm ps) (path : Path) :
    (os.filter fun o => o.path.same path) = ps.filter fun o => o.path.same path := by
  have hsame := hperm.filter fun o => o.path.same path
  have hfiltered := hapart.filter fun o => o.path.same path
  cases hfound : os.filter fun o => o.path.same path with
  | nil =>
    rw [hfound] at hsame
    exact (List.nil_perm.1 hsame).symm
  | cons o rest =>
    cases rest with
    | nil =>
      rw [hfound] at hsame
      exact List.singleton_perm.1 hsame
    | cons p rest =>
      -- two files at one path are not apart
      have hmem : ∀ q ∈ o :: p :: rest, q.path.components = path.components := by
        intro q hq
        rw [← hfound] at hq
        exact eq_of_beq (List.mem_filter.1 hq).2
      rw [hfound] at hfiltered
      have ho := hmem o List.mem_cons_self
      have hp := hmem p (List.mem_cons_of_mem _ List.mem_cons_self)
      refine absurd ?_ ((List.pairwise_cons.1 hfiltered).1 p List.mem_cons_self)
      rw [Path.same, ho, hp]
      exact beq_self_eq_true _

/-- **Tables of the same outlines are alike.** -/
theorem alike_of_perm (hapart : (outlines units).Pairwise fun o p => ¬ o.path.same p.path)
    (hothers : (outlines others).Pairwise fun o p => ¬ o.path.same p.path)
    (hperm : (outlines units).Perm (outlines others)) : (build units).Alike (build others) := by
  have hrefs : Reference.ofOutline (outlines units) = Reference.ofOutline (outlines others) :=
    funext (Reference.ofOutline_congr (fun _ => hperm.mem_iff) wellNamed_outlines)
  have hfiles : (build units).files.Perm (build others).files := by
    rw [files_build hapart, files_build hothers, hrefs]
    exact hperm.map _
  have hcollected := hfiles.flatMap_right Prod.snd
  have hdeclared : (build units).declarations.length = (build others).declarations.length := by
    have hnames := ((hperm.flatMap_right Outline.declarations).map Declaration.name)
    rw [← List.length_map Declaration.name, map_name_declarations,
      Resolution.ordered_congr fun _ => hnames.mem_iff, ← map_name_declarations, List.length_map]
  constructor
  case references =>
    intro path
    rw [references_build, references_build, filter_path_perm hapart hperm, hrefs]
  case stats =>
    rw [SymbolTable.stats, SymbolTable.stats, hfiles.length_eq, hdeclared,
      hcollected.length_eq, (hcollected.filter _).length_eq, (hcollected.filter _).length_eq]

/-! ### Projects -/

/-- **A project is rearranged**: its files come in another order, and files
without a tree, for they are no Java or could not be parsed, come in or go.
In both projects all files are at paths of their own. -/
structure Rearranged (units others : List SourceUnit) : Prop where
  apart : units.Pairwise fun u v => ¬ u.path.same v.path
  apart_others : others.Pairwise fun u v => ¬ u.path.same v.path
  same : ∃ kept gone come, units.Perm (kept ++ gone) ∧ others.Perm (kept ++ come) ∧
    (∀ u ∈ gone, u.tree? = none) ∧ ∀ u ∈ come, u.tree? = none

theorem pairwise_outlines (h : units.Pairwise fun u v => ¬ u.path.same v.path) :
    (outlines units).Pairwise fun o p => ¬ o.path.same p.path := by
  rw [outlines, List.pairwise_filterMap]
  refine h.imp fun happart o ho p hp => ?_
  rwa [path_of_outline? ho, path_of_outline? hp]

/-- Files without a tree have no outlines. -/
theorem outlines_append_of_treeless (h : ∀ u ∈ others, u.tree? = none) :
    outlines (units ++ others) = outlines units := by
  have hnone : outlines others = [] :=
    List.filterMap_eq_nil_iff.2 fun u hu => by rw [outline?, h u hu, Option.map_none]
  rw [outlines_append, hnone, List.append_nil]

/-- **A rearranged project has a table that is alike.** -/
theorem alike_of_rearranged (h : Rearranged units others) : (build units).Alike (build others) := by
  obtain ⟨kept, gone, come, hunits, hothers, hgone, hcome⟩ := h.same
  have hold : (outlines units).Perm (outlines kept) := by
    rw [← @outlines_append_of_treeless kept _ hgone]
    exact hunits.filterMap _
  have hnew : (outlines others).Perm (outlines kept) := by
    rw [← @outlines_append_of_treeless kept _ hcome]
    exact hothers.filterMap _
  exact alike_of_perm (pairwise_outlines h.apart) (pairwise_outlines h.apart_others)
    (hold.trans hnew.symm)

end SymbolTable

end Remedy
