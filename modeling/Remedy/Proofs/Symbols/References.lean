import Mathlib
import Remedy.Proofs.Java.Regular
import Remedy.Proofs.Symbols.Scope
/-!
# The references that a table holds

Where the references of a file stand is told by the file alone: under the
outlines of another project they have the same names and spans, in the same
order, and stand for something else at most (`Reference.ofOutline_eq_map`).
At each path a table has the references of the last file there
(`SymbolTable.references_build`).
-/

namespace Remedy

namespace SourceUnit

variable {unit : SourceUnit} {tree : Java.Tree}

theorem content_of_tree? (h : unit.tree? = some tree) : unit.content = .java tree := by
  rw [tree?] at h
  split at h
  · next hcontent => rw [hcontent, Option.some.inj h]
  · cases h

/-- A unit with a tree was parsed. -/
theorem parseError?_of_tree? (h : unit.tree? = some tree) : unit.parseError? = none := by
  rw [parseError?, content_of_tree? h]

/-- The tree of a text is what the readers make of it. -/
theorem read_of_contentOf {language : Language} {text : String} {readers : Readers}
    (h : contentOf language text readers = .java tree) : readers.java text = .ok tree := by
  cases language with
  | xml => cases h
  | java =>
    rw [contentOf.eq_def] at h
    dsimp only at h
    split at h
    · next hread => rw [hread, (UnitContent.java.inj h)]
    · cases h

/-- A Java file with a text. -/
def ofJava (path text : String) : SourceUnit :=
  ⟨⟨path⟩, .java, .utf8, text, contentOf .java text⟩

theorem regular_of_ofJava {path text : String} (h : (ofJava path text).tree? = some tree) :
    tree.Regular text := by
  have hcontent : contentOf .java text = .java tree := content_of_tree? h
  exact Readers.regular_standard _ _ (read_of_contentOf hcontent)

end SourceUnit

namespace Reference

variable {outlines others : List Outline} {o : Outline}

/-- The reference under the outlines of a project. -/
def under (outlines : List Outline) (o : Outline) (r : Reference) : Reference :=
  { r with resolution := Resolution.ofName outlines o r.name r.span }

/-- References are told apart by their spans alone. -/
theorem distinct_map {f : Reference → Reference} (hf : ∀ r, (f r).span = r.span)
    (refs : List Reference) : distinct (refs.map f) = (distinct refs).map f := by
  induction refs using distinct.induct with
  | case1 a b rest hsame ih =>
    have hmapped : (f a).span = (f b).span := by rw [hf, hf, hsame]
    rw [List.map_cons, List.map_cons, distinct, if_pos hmapped, distinct, if_pos hsame, ← ih,
      List.map_cons]
  | case2 a b rest hother ih =>
    have hmapped : (f a).span ≠ (f b).span := by rwa [hf, hf]
    rw [List.map_cons, List.map_cons, distinct, if_neg hmapped, distinct, if_neg hother,
      List.map_cons, ← ih, List.map_cons]
  | case3 refs hshort =>
    cases refs with
    | nil => rw [List.map_nil, distinct.eq_def, List.map_nil]
    | cons a refs =>
      cases refs with
      | nil => rw [List.map_cons, List.map_nil, distinct.eq_def, distinct.eq_def]; rfl
      | cons b rest => exact absurd rfl (hshort a b rest)

/-- **The references of a file under another project** have the same names
and spans. -/
theorem ofOutline_eq_map (outlines others : List Outline) (o : Outline) :
    ofOutline others o = (ofOutline outlines o).map (under others o) := by
  have hspan : ∀ r, (under others o r).span = r.span := fun _ => rfl
  have hsorted (refs : List Reference) :
      (refs.mergeSort fun a b => a.span.le b.span).map (under others o) =
        (refs.map (under others o)).mergeSort fun a b => a.span.le b.span :=
    List.map_mergeSort fun _ _ _ _ => rfl
  rw [ofOutline, ofOutline, ← distinct_map hspan, hsorted, List.map_map]
  rfl

/-- A reference stands for what its name does at its place. -/
theorem resolution_of_mem {r : Reference} (h : r ∈ ofOutline outlines o) :
    r.resolution = Resolution.ofName outlines o r.name r.span := by
  rw [ofOutline_eq_map outlines outlines] at h
  obtain ⟨s, -, rfl⟩ := List.mem_map.1 h
  rfl

end Reference

namespace SymbolTable

variable {path : Path} {units : List SourceUnit}

/-- The references entered for a path. -/
def lookup (files : List (Path × FileReferences)) (path : Path) : Option FileReferences :=
  (files.find? fun (p, _) => p.same path).map (·.2)

theorem lookup_cons (q : Path) (refs : FileReferences) (rest : List (Path × FileReferences))
    (path : Path) :
    lookup ((q, refs) :: rest) path = if q.same path then some refs else lookup rest path := by
  rw [lookup, List.find?_cons]
  by_cases hsame : q.same path
  · simp only [hsame, if_true, Option.map_some]
  · simp only [hsame, Bool.false_eq_true, if_false]
    rfl

/-- What is entered for a file is found at its path and nowhere else. -/
theorem lookup_insertFile (p : Path) (refs : FileReferences)
    (files : List (Path × FileReferences)) (path : Path) :
    lookup (insertFile p refs files) path =
      if p.same path then some refs else lookup files path := by
  induction files with
  | nil => exact lookup_cons p refs [] path
  | cons entry rest ih =>
    obtain ⟨q, old⟩ := entry
    rw [insertFile]
    split
    case isTrue hsame =>
      -- the path in the table stays, and it is the same as the one of the file
      have hcongr : q.same path = p.same path := by rw [Path.same, Path.same, eq_of_beq hsame]
      rw [lookup_cons, lookup_cons, hcongr]
      split <;> rfl
    case isFalse hother =>
      rw [lookup_cons, lookup_cons, ih]
      by_cases hq : q.same path
      · have hp : ¬ p.same path := by
          intro hp
          rw [Path.same, beq_iff_eq] at hother hq hp
          exact hother (hq.trans hp.symm)
        rw [if_pos hq, if_pos hq, if_neg hp]
      · rw [if_neg hq, if_neg hq]

/-- What files leave in a table at a path is what the last of them there
does. -/
theorem lookup_foldl_insertFile (refs : Outline → FileReferences) (outlines : List Outline)
    (files : List (Path × FileReferences)) (path : Path) :
    lookup (outlines.foldl (fun done o => insertFile o.path (refs o) done) files) path =
      (((outlines.filter fun o => o.path.same path).getLast?).map refs).or (lookup files path) := by
  induction outlines generalizing files with
  | nil => rfl
  | cons o outlines ih =>
    rw [List.foldl_cons, ih, lookup_insertFile, List.filter_cons]
    split
    case isTrue hsame =>
      rw [List.getLast?_cons]
      cases (outlines.filter fun o => o.path.same path).getLast? <;> rfl
    case isFalse => rfl

/-- The outlines of units. -/
def outlines (units : List SourceUnit) : List Outline := units.filterMap outline?

theorem outlines_append (units more : List SourceUnit) :
    outlines (units ++ more) = outlines units ++ outlines more := List.filterMap_append

theorem mem_outlines {o : Outline} : o ∈ outlines units ↔ ∃ u ∈ units, outline? u = some o :=
  List.mem_filterMap

theorem path_of_outline? {u : SourceUnit} {o : Outline} (h : outline? u = some o) :
    o.path = u.path := by
  obtain ⟨tree, -, rfl⟩ := Option.map_eq_some_iff.1 h
  rfl

/-- The outlines of a project are well named. -/
theorem wellNamed_outlines : ∀ o ∈ outlines units, o.WellNamed := by
  intro o ho
  obtain ⟨u, -, hu⟩ := mem_outlines.1 ho
  obtain ⟨tree, -, rfl⟩ := Option.map_eq_some_iff.1 hu
  exact Outline.wellNamed_ofTree _ _ _

/-- **At a path a table has the references of the last file there.** -/
theorem references_build (units : List SourceUnit) (path : Path) :
    (build units).references path =
      ((((outlines units).filter fun o => o.path.same path).getLast?).map
        (Reference.ofOutline (outlines units))).getD [] := by
  have hfound := lookup_foldl_insertFile (Reference.ofOutline (outlines units)) (outlines units) []
    path
  have hempty : lookup [] path = none := rfl
  rw [hempty, Option.or_none] at hfound
  rw [← hfound]
  rfl

end SymbolTable

end Remedy
