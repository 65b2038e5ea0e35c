import Mathlib
import Remedy.Proofs.Files.Discovered
import Remedy.Proofs.Findings.Deduplicate
import Remedy.Proofs.Path.Names
/-!
# A search finds the source files

What a search finds below a directory, which may stand anywhere in a tree, are
the source files there and nothing else, in the strict order of their paths
(`Sources.exact_below`). A source file is told by its names from that
directory on (`Sources.IsSource`): the names of the directory itself do not
count, and a directory that is skipped is left out with all below it.
-/

namespace Remedy

open Std

namespace Sources

/-- **The names of a source file** from a directory at a place on. -/
structure IsSource (top : FileNode) (place names : List String) : Prop where
  /-- A regular file stands there. -/
  file : ∃ content number, top.at? (place ++ names) = some (.file content number)
  /-- The last name has one of two extensions, in letters of any case. -/
  known : ∃ above stem extension, names = above ++ [stem ++ "." ++ extension] ∧
    stem ≠ "" ∧ '.' ∉ extension.toList ∧ Text.lowerAscii extension ∈ ["java", "xml"]
  /-- No name is hidden. -/
  shown : ∀ name ∈ names, name.toList.head? ≠ some '.'
  /-- No directory is one of build output or of installed packages. -/
  entered : ∀ name ∈ names.dropLast,
    name ∉ ["node_modules", "target", "build", "out", "__pycache__"]

/-- **All source files** below a directory at a place, and nothing else. -/
structure Exact (top : FileNode) (place : List String) (found : List Path) : Prop where
  /-- The paths stand in the strict order of their components. -/
  increasing : found.Pairwise fun p q => p.order q = .lt
  mem_iff : ∀ p, p ∈ found ↔ ∃ names, IsSource top place names ∧ p = ⟨"/".intercalate names⟩
  /-- The components of a path are the names, -/
  components : ∀ names, IsSource top place names →
    (⟨"/".intercalate names⟩ : Path).components = names.map .name
  /-- and all that stands above a source are directories: no link leads to
  it. -/
  unlinked : ∀ names, IsSource top place names → ∀ n < names.length,
    ∃ entries, top.at? (place ++ names.take n) = some (.directory entries)

variable {top node : FileNode} {place names : List String} {p : Path}

/-! ### Names of sources -/

/-- The names of a source are read back from its path. -/
theorem IsSource.components_eq (htidy : top.Tidy) (h : IsSource top place names) :
    (⟨"/".intercalate names⟩ : Path).components = names.map .name := by
  obtain ⟨content, number, hfile⟩ := h.file
  have hplain : ∀ name ∈ names, (PathComponent.name name).Plain := fun name hname =>
    (htidy.of_at? hfile).1 name (List.mem_append_right place hname)
  rw [← relative_eq, components_relative hplain]

/-- All that stands above a source is a directory, for there is nothing below
a file or a link. -/
theorem IsSource.exists_directory {n : Nat} (h : IsSource top place names)
    (hn : n < names.length) :
    ∃ entries, top.at? (place ++ names.take n) = some (.directory entries) := by
  obtain ⟨content, number, hfile⟩ := h.file
  have hcut : place ++ names = place ++ names.take n ++ [names[n]] ++ names.drop (n + 1) := by
    rw [List.append_assoc, List.append_assoc, List.singleton_append, List.getElem_cons_drop,
      List.take_append_drop]
  rw [hcut, FileNode.at?_append] at hfile
  obtain ⟨next, hnext, -⟩ := Option.bind_eq_some_iff.1 hfile
  have hthere : (top.at? (place ++ names.take n ++ [names[n]])).isSome :=
    Option.isSome_iff_exists.2 ⟨next, hnext⟩
  obtain ⟨above, habove, hdirectory⟩ := FileNode.isDirectory_above hthere
  cases above with
  | file | link => cases hdirectory
  | directory entries => exact ⟨entries, habove⟩

/-! ### What is found -/

/-- **What is found below a directory** are the names of the source files
there. -/
theorem mem_ofEntries_iff_isSource (htidy : node.Tidy) (hnode : top.at? place = some node) :
    names ∈ ofEntries [] node.entries ↔ IsSource top place names := by
  have hat : top.at? (place ++ names) = node.at? names := by
    rw [FileNode.at?_append, hnode, Option.bind_some]
  rw [mem_ofEntries_iff htidy]
  constructor
  · rintro ⟨-, ⟨content, number, hfile⟩, hopen, hknown⟩
    have hcomponents := components_relative (htidy.of_at? hfile).1
    have hshown : ∀ name ∈ names, name.toList.head? ≠ some '.' := fun name hname =>
      beq_eq_false_iff_ne.1 (hopen.shown name hname)
    exact ⟨⟨content, number, hat.trans hfile⟩, (Language.isSome_ofPath?_iff hcomponents).1 hknown,
      hshown,
      hopen.entered⟩
  · rintro ⟨⟨content, number, hthere⟩, hknown, hshown, hentered⟩
    have hfile : node.at? names = some (.file content number) := hat.symm.trans hthere
    have hcomponents := components_relative (htidy.of_at? hfile).1
    have hopen : Open names :=
      ⟨fun name hname => beq_eq_false_iff_ne.2 (hshown name hname), hentered⟩
    have hne : names ≠ [] := by
      obtain ⟨above, stem, extension, rfl, -⟩ := hknown
      exact List.concat_ne_nil _ _
    exact ⟨hne, ⟨content, number, hfile⟩, hopen, (Language.isSome_ofPath?_iff hcomponents).2 hknown⟩

theorem mem_below_iff_isSource (htidy : node.Tidy) (hnode : top.at? place = some node) :
    p ∈ below node ↔ ∃ names, IsSource top place names ∧ p = ⟨"/".intercalate names⟩ := by
  rw [below, List.mem_mergeSort, List.mem_map]
  refine exists_congr fun names => and_congr (mem_ofEntries_iff_isSource htidy hnode) ?_
  rw [relative_eq, eq_comm]

/-- **The sources that are found** stand in a strict order. They are sorted,
and of two at the same components one would have been found twice. -/
theorem increasing_below (htidy : node.Tidy) :
    (below node).Pairwise fun p q => p.order q = .lt := by
  have hsorted : (below node).Pairwise fun p q => (p.order q).isLE :=
    List.pairwise_mergeSort (fun _ _ _ => TransCmp.isLE_trans) isLE_or_isLE _
  refine (hsorted.and (pairwise_below htidy)).imp fun {p q} h => ?_
  obtain ⟨hle, hother⟩ := h
  cases horder : p.order q with
  | lt => rfl
  | gt =>
    rw [horder] at hle
    cases hle
  | eq =>
    rw [Path.same, Path.components_eq_of_order horder, beq_self_eq_true] at hother
    cases hother

/-- **A search finds the source files**, whatever the names of the directory
are that it starts in. -/
theorem exact_below {entries : List (String × FileNode)} (htidy : top.Tidy)
    (hroot : top.at? place = some (.directory entries)) :
    Exact top place (below (.directory entries)) := by
  have hbelow : (FileNode.directory entries).Tidy := (htidy.of_at? hroot).2
  exact
    { increasing := increasing_below hbelow
      mem_iff := fun p => mem_below_iff_isSource hbelow hroot
      components := fun names h => h.components_eq htidy
      unlinked := fun names h n hn => h.exists_directory hn }

/-! ### A small tree -/

/-- A directory with three sources among what is hidden, skipped or linked, -/
def workshop : List (String × FileNode) :=
  [("Tool.JAVA", .file []), ("README.md", .file []), (".Spare.java", .file []),
    ("Link.java", .link "Tool.JAVA"), ("target", .directory [("Made.java", .file [])]),
    ("src", .directory [("b.xml", .file []), ("a", .directory [("out.java", .file [])])])]

/-- under a name that is skipped elsewhere. -/
def yard : FileNode := .directory [("build", .directory workshop)]

theorem tidy_yard : yard.Tidy := by
  have hplain : ∀ name ∈ ["build", "Tool.JAVA", "README.md", ".Spare.java", "Link.java", "target",
      "Made.java", "src", "b.xml", "a", "out.java"], (PathComponent.name name).Plain := by
    unfold PathComponent.Plain
    decide +kernel
  simp only [List.forall_mem_cons] at hplain
  obtain ⟨hbuild, htool, hreadme, hspare, hlink, htarget, hmade, hsrc, hxml, ha, hout, -⟩ := hplain
  have hmadeOnly : (FileNode.directory [("Made.java", .file [])]).Tidy :=
    .directory (by decide) (by simpa using hmade) (by simpa using .file [] none)
  have houtOnly : (FileNode.directory [("out.java", .file [])]).Tidy :=
    .directory (by decide) (by simpa using hout) (by simpa using .file [] none)
  have hsources : (FileNode.directory
      [("b.xml", .file []), ("a", .directory [("out.java", .file [])])]).Tidy :=
    .directory (by decide) (by simpa using ⟨hxml, ha⟩) (by simpa using ⟨.file [] none, houtOnly⟩)
  refine .directory (by decide) (by simpa using hbuild) (List.forall_mem_singleton.2 ?_)
  refine .directory (by decide) ?_ ?_
  · simpa [workshop] using ⟨htool, hreadme, hspare, hlink, htarget, hsrc⟩
  · simpa [workshop] using ⟨.file [] none, .link "Tool.JAVA", hmadeOnly, hsources⟩

theorem exact_below_yard :
    yard.Tidy ∧ yard.at? ["build"] = some (.directory workshop) ∧
    below (.directory workshop) = [⟨"Tool.JAVA"⟩, ⟨"src/a/out.java"⟩, ⟨"src/b.xml"⟩] ∧
    Exact yard ["build"] (below (.directory workshop)) := by
  have hexact : Exact yard ["build"] (below (.directory workshop)) := exact_below tidy_yard rfl
  refine ⟨tidy_yard, rfl, ?_, hexact⟩
  have hfound : (ofEntries [] workshop).map relative =
      [⟨"Tool.JAVA"⟩, ⟨"src/b.xml"⟩, ⟨"src/a/out.java"⟩] := by decide +kernel
  refine eq_of_pairwise_of_mem_iff (fun p q => OrientedCmp.not_lt_of_lt) hexact.increasing
    (by decide +kernel) fun p => ?_
  rw [below, List.mem_mergeSort, FileNode.entries, hfound]
  exact (List.Perm.cons _ (.swap _ _ _)).mem_iff

end Sources

end Remedy
