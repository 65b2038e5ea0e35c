import Mathlib.Data.List.Basic
import Mathlib.Data.List.Nodup
import Mathlib.Data.List.Sort
import Remedy.Files.Sources
import Remedy.Proofs.Files.Places
import Remedy.Proofs.Path.Canonical
/-!
# The sources that are found

In a tree as file systems hold it (`FileNode.Tidy`) a place can be written
out as a path and read back. What is found below a node are the files of a
known language at names that a search gets to (`Sources.mem_ofEntries_iff`).
So each source is a file at the names of its path
(`Sources.exists_of_mem_below`), and no two of them are the same
(`Sources.pairwise_below`).
-/

namespace Remedy

/-- **A tree as file systems hold it**: in each directory the names differ,
and they can be written in a path. -/
inductive FileNode.Tidy : FileNode → Prop where
  | file (content : Bytes) (number : Option Nat) : Tidy (.file content number)
  | link (target : String) : Tidy (.link target)
  | directory {entries : List (String × FileNode)} : (entries.map Prod.fst).Nodup →
      (∀ entry ∈ entries, (PathComponent.name entry.1).Plain) →
      (∀ entry ∈ entries, Tidy entry.2) → Tidy (.directory entries)

variable {node child : FileNode} {entries : List (String × FileNode)} {name : String}
  {above names place : List String} {p : Path}

namespace FileNode

/-- Where names differ, an entry is what is found by its name. -/
theorem lookup_eq_some_iff_mem (hnames : (entries.map Prod.fst).Nodup) :
    entries.lookup name = some child ↔ (name, child) ∈ entries := by
  constructor
  · intro h
    obtain ⟨ahead, behind, rfl, -⟩ := List.lookup_eq_some_iff.1 h
    exact List.mem_append_right ahead List.mem_cons_self
  · intro h
    obtain ⟨ahead, behind, rfl⟩ := List.append_of_mem h
    rw [List.map_append, List.map_cons, List.nodup_middle, List.nodup_cons] at hnames
    refine List.lookup_eq_some_iff.2 ⟨ahead, behind, rfl, fun entry hentry => bne_iff_ne.2 ?_⟩
    rintro rfl
    exact hnames.1 (List.mem_append_left _ (List.mem_map.2 ⟨entry, hentry, rfl⟩))

/-- What stands below a directory stands at or below one of its entries. -/
theorem at?_cons_eq_some_iff {found : FileNode} (hnames : (entries.map Prod.fst).Nodup) :
    (directory entries).at? (name :: place) = some found ↔
      ∃ child, (name, child) ∈ entries ∧ child.at? place = some found := by
  rw [at?_cons, Option.bind_eq_some_iff]
  exact exists_congr fun child => and_congr_left' (lookup_eq_some_iff_mem hnames)

/-- **The names on the way to a node** can be written, and below it the tree
is as file systems hold it. -/
theorem Tidy.of_at? (h : node.Tidy) (hat : node.at? place = some child) :
    (∀ name ∈ place, (PathComponent.name name).Plain) ∧ child.Tidy := by
  induction place generalizing node with
  | nil =>
    obtain rfl := Option.some.inj hat
    exact ⟨nofun, h⟩
  | cons name place ih =>
    cases h with
    | file | link => cases hat
    | directory hnames hplain htidy =>
      obtain ⟨between, hmem, hrest⟩ := (at?_cons_eq_some_iff hnames).1 hat
      obtain ⟨hbelow, hchild⟩ := ih (htidy _ hmem) hrest
      exact ⟨List.forall_mem_cons.2 ⟨hplain _ hmem, hbelow⟩, hchild⟩

end FileNode

/-- Names that can be written are read back. -/
theorem Path.plain_names (h : ∀ name ∈ names, (PathComponent.name name).Plain) :
    ∀ c ∈ names.map PathComponent.name, c.Plain := by
  intro c hc
  obtain ⟨name, hname, rfl⟩ := List.mem_map.1 hc
  exact h name hname

theorem Path.same_eq_false_symm {q : Path} (h : p.same q = false) : q.same p = false := by
  rwa [same, Bool.beq_comm] at h

/-- The path of a place starts at the root. -/
theorem Path.components_ofPlace (h : ∀ name ∈ place, (PathComponent.name name).Plain) :
    (ofPlace place).components = .root :: place.map .name :=
  components_ofComponents (.absolute _ (plain_names h))

namespace Sources

/-- The path of names has slashes between them. -/
theorem relative_eq (names : List String) : relative names = ⟨"/".intercalate names⟩ := by
  have htext : (names.map PathComponent.name).map PathComponent.text = names := by
    rw [List.map_map]
    exact List.map_id names
  have hpath : relative names =
      ⟨"/".intercalate ((names.map PathComponent.name).map PathComponent.text)⟩ := by
    cases names <;> rfl
  rw [hpath, htext]

theorem components_relative (h : ∀ name ∈ names, (PathComponent.name name).Plain) :
    (relative names).components = names.map .name :=
  Path.components_ofComponents (.relative _ (Path.plain_names h))

theorem ofEntries_eq_flatMap (above : List String) (entries : List (String × FileNode)) :
    ofEntries above entries = entries.flatMap fun entry => ofEntry above entry.1 entry.2 := by
  induction entries with
  | nil => rfl
  | cons entry entries ih => rw [ofEntries, ih, List.flatMap_cons]

/-- **Names that a search gets to**: none of them is hidden, and none but the
last, which is that of a file, is one of a directory that is skipped. -/
structure Open (names : List String) : Prop where
  shown : ∀ name ∈ names, isHidden name = false
  entered : ∀ name ∈ names.dropLast, name ∉ skippedDirectories

/-- A search gets from a directory to what is in it. -/
theorem open_cons_iff (hne : names ≠ []) :
    Open (name :: names) ↔ (isHidden name || skippedDirectories.contains name) = false ∧
      Open names := by
  rw [Bool.or_eq_false_iff, ← Bool.not_eq_true (List.contains _ _), List.contains_iff_mem]
  constructor
  · rintro ⟨hshown, hentered⟩
    rw [List.dropLast_cons_of_ne_nil hne] at hentered
    obtain ⟨hname, hshown⟩ := List.forall_mem_cons.1 hshown
    obtain ⟨hdirectory, hentered⟩ := List.forall_mem_cons.1 hentered
    exact ⟨⟨hname, hdirectory⟩, hshown, hentered⟩
  · rintro ⟨⟨hname, hdirectory⟩, hshown, hentered⟩
    refine ⟨List.forall_mem_cons.2 ⟨hname, hshown⟩, ?_⟩
    rw [List.dropLast_cons_of_ne_nil hne]
    exact List.forall_mem_cons.2 ⟨hdirectory, hentered⟩

/-- **What is found at an entry** are the files at and below it, of a known
language, that a search gets to. -/
theorem mem_ofEntry_iff (htidy : node.Tidy) : names ∈ ofEntry above name node ↔
    ∃ rest content number, names = above ++ name :: rest ∧
      node.at? rest = some (.file content number) ∧ Open (name :: rest) ∧
      (Language.ofPath? (relative names)).isSome := by
  induction htidy generalizing above name with
  | file content number =>
    rw [ofEntry]
    constructor
    · intro h
      split at h
      case isTrue hknown =>
        rw [Bool.and_eq_true, Bool.not_eq_true'] at hknown
        rw [List.mem_singleton] at h
        exact ⟨[], content, number, h, rfl, ⟨List.forall_mem_singleton.2 hknown.1, nofun⟩,
          h ▸ hknown.2⟩
      case isFalse => cases h
    · rintro ⟨rest, content', number', rfl, hat, hopen, hknown⟩
      cases rest with
      | cons => cases hat
      | nil =>
        have hshown := hopen.shown name List.mem_cons_self
        rw [if_pos (by rw [hshown, hknown]; rfl)]
        exact List.mem_singleton_self _
  | link target =>
    rw [ofEntry]
    constructor
    · intro h
      cases h
    · rintro ⟨rest, content, number, -, hat, -⟩
      cases rest <;> cases hat
  | @directory entries hnames _ _ ih =>
    rw [ofEntry]
    constructor
    · intro h
      split at h
      case isTrue => cases h
      case isFalse hentered =>
        rw [ofEntries_eq_flatMap] at h
        obtain ⟨entry, hentry, h⟩ := List.mem_flatMap.1 h
        obtain ⟨rest, content, number, heq, hfile, hopen, hknown⟩ := (ih entry hentry).1 h
        refine ⟨entry.1 :: rest, content, number, ?_, ?_, ?_, hknown⟩
        · rw [heq, List.append_assoc, List.singleton_append]
        · exact (FileNode.at?_cons_eq_some_iff hnames).2 ⟨entry.2, hentry, hfile⟩
        · exact (open_cons_iff (List.cons_ne_nil _ _)).2 ⟨Bool.not_eq_true _ ▸ hentered, hopen⟩
    · rintro ⟨rest, content, number, rfl, hfile, hopen, hknown⟩
      cases rest with
      | nil => cases hfile
      | cons n rest =>
        obtain ⟨hentered, hopen⟩ := (open_cons_iff (List.cons_ne_nil _ _)).1 hopen
        obtain ⟨child, hentry, hrest⟩ := (FileNode.at?_cons_eq_some_iff hnames).1 hfile
        rw [if_neg (by rw [hentered]; exact Bool.false_ne_true), ofEntries_eq_flatMap]
        refine List.mem_flatMap.2 ⟨(n, child), hentry, (ih (n, child) hentry).2
          ⟨rest, content, number, ?_, hrest, hopen, hknown⟩⟩
        rw [List.append_assoc, List.singleton_append]

/-- **What is found below a directory** are the files of a known language
that a search gets to from there. -/
theorem mem_ofEntries_iff (htidy : node.Tidy) : names ∈ ofEntries [] node.entries ↔
    names ≠ [] ∧ (∃ content number, node.at? names = some (.file content number)) ∧
      Open names ∧ (Language.ofPath? (relative names)).isSome := by
  rw [ofEntries_eq_flatMap, List.mem_flatMap]
  constructor
  · rintro ⟨entry, hentry, h⟩
    cases htidy with
    | file | link => cases hentry
    | directory hnames _ htidy =>
      obtain ⟨rest, content, number, rfl, hat, hopen, hknown⟩ :=
        (mem_ofEntry_iff (htidy entry hentry)).1 h
      exact ⟨List.cons_ne_nil _ _, ⟨content, number, (FileNode.at?_cons_eq_some_iff hnames).2
        ⟨entry.2, hentry, hat⟩⟩, hopen, hknown⟩
  · rintro ⟨hne, ⟨content, number, hat⟩, hopen, hknown⟩
    obtain ⟨name, rest, rfl⟩ := List.exists_cons_of_ne_nil hne
    cases htidy with
    | file | link => cases hat
    | directory hnames _ htidy =>
      obtain ⟨child, hentry, hrest⟩ := (FileNode.at?_cons_eq_some_iff hnames).1 hat
      exact ⟨(name, child), hentry, (mem_ofEntry_iff (htidy _ hentry)).2
        ⟨rest, content, number, rfl, hrest, hopen, hknown⟩⟩

/-- **Nothing is found twice** below entries. -/
theorem nodup_ofEntries (hnames : (entries.map Prod.fst).Nodup)
    (htidy : ∀ entry ∈ entries, entry.2.Tidy)
    (h : ∀ entry ∈ entries, (ofEntry above entry.1 entry.2).Nodup) :
    (ofEntries above entries).Nodup := by
  rw [ofEntries_eq_flatMap, List.nodup_flatMap]
  refine ⟨h, (List.pairwise_map.1 hnames).imp_of_mem ?_⟩
  intro entry other hentry hother hne names hfound hfound'
  obtain ⟨rest, -, -, heq, -⟩ := (mem_ofEntry_iff (htidy _ hentry)).1 hfound
  obtain ⟨rest', -, -, heq', -⟩ := (mem_ofEntry_iff (htidy _ hother)).1 hfound'
  exact hne (List.cons.inj (List.append_cancel_left (heq.symm.trans heq'))).1

theorem nodup_ofEntry (htidy : node.Tidy) (above : List String) (name : String) :
    (ofEntry above name node).Nodup := by
  induction htidy generalizing above name with
  | file content =>
    rw [ofEntry]
    split
    · exact List.nodup_singleton _
    · exact List.nodup_nil
  | link => exact List.nodup_nil
  | @directory entries hnames _ htidy ih =>
    rw [ofEntry]
    split
    · exact List.nodup_nil
    · exact nodup_ofEntries hnames htidy fun entry hentry => ih entry hentry _ _

/-- The sources below a directory, in the order in which they are found. -/
theorem exists_of_mem_ofEntries (htidy : node.Tidy) (h : names ∈ ofEntries [] node.entries) :
    ∃ content number, names ≠ [] ∧ node.at? names = some (.file content number) ∧
      (∀ name ∈ names, (PathComponent.name name).Plain) ∧
      (Language.ofPath? (relative names)).isSome := by
  obtain ⟨hne, ⟨content, number, hat⟩, -, hknown⟩ := (mem_ofEntries_iff htidy).1 h
  exact ⟨content, number, hne, hat, (htidy.of_at? hat).1, hknown⟩

/-- **A source that is found** is a file of a known language, at the names
of its path. -/
theorem exists_of_mem_below (htidy : node.Tidy) (h : p ∈ below node) :
    ∃ names content number, names ≠ [] ∧ p.components = names.map .name ∧
      node.at? names = some (.file content number) ∧ (Language.ofPath? p).isSome := by
  rw [below, List.mem_mergeSort] at h
  obtain ⟨names, hfound, rfl⟩ := List.mem_map.1 h
  obtain ⟨content, number, hne, hat, hplain, hknown⟩ := exists_of_mem_ofEntries htidy hfound
  exact ⟨names, content, number, hne, components_relative hplain, hat, hknown⟩

/-- **No source is found twice.** -/
theorem pairwise_below (htidy : node.Tidy) :
    (below node).Pairwise fun p q => p.same q = false := by
  rw [below, (List.mergeSort_perm _ _).pairwise_iff Path.same_eq_false_symm, List.pairwise_map]
  have hnodup : (ofEntries [] node.entries).Nodup := by
    cases htidy with
    | file | link => exact List.nodup_nil
    | directory hnames _ htidy =>
      exact nodup_ofEntries hnames htidy fun _ hentry => nodup_ofEntry (htidy _ hentry) _ _
  refine hnodup.imp_of_mem fun {names others} hnames hothers hne => ?_
  obtain ⟨-, -, -, -, hplain, -⟩ := exists_of_mem_ofEntries htidy hnames
  obtain ⟨-, -, -, -, hplain', -⟩ := exists_of_mem_ofEntries htidy hothers
  rw [Path.same, components_relative hplain, components_relative hplain', beq_eq_false_iff_ne]
  exact fun heq => hne (List.map_injective_iff.2 (fun _ _ => PathComponent.name.inj) heq)

end Sources

end Remedy
