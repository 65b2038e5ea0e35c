import Mathlib.Data.List.Basic
import Mathlib.Data.Set.Basic
import Remedy.Proofs.Failing
import Remedy.Proofs.Files.Located
/-!
# What operations change

An operation on a file leaves directories and links as they are. A file that
is written has new content under all its names, and nothing else changes
(`Disk.write_cases`); one that is moved leaves its place for another one
(`Disk.move_cases`). A host may refuse each of them, and may break off a file
that it writes. What stays among some places that share no file with others is
`Disk.Within` them. What is made can be removed again and then leaves no trace,
unless the removal is refused (`Disk.removeFile_of_create`).
-/

namespace Remedy

namespace Disk

/-- **Two disks that differ at one place**, and what stands there now. -/
structure Sets (before after : Disk) (place : List String) (now : Option FileNode) : Prop where
  workingDirectory : after.workingDirectory = before.workingDirectory
  there : after.view place = now
  elsewhere : ∀ q, q ≠ place → after.view q = before.view q

/-- The number of the file at a place, if it is one of several names. -/
def numberAt (disk : Disk) (place : List String) : Option Nat :=
  (disk.view place).bind FileNode.number?

/-- **Two names of one file.** -/
def Shares (disk : Disk) (place q : List String) : Prop :=
  ∃ number, disk.numberAt place = some number ∧ disk.numberAt q = some number

/-- **A path to no file of several names.** -/
def Sole (disk : Disk) (p : Path) : Prop :=
  ∀ place, disk.place p true = .ok place → disk.numberAt place = none

/-- **A file with new content.** It has it under all its names, and keeps
these. Nothing else has changed. -/
structure Filled (before after : Disk) (place : List String) (content : Bytes) : Prop where
  sameWay : before.SameWay after
  there : after.view place = some (.file content (before.numberAt place))
  numberAt : ∀ q, after.numberAt q = before.numberAt q
  elsewhere : ∀ q, q ≠ place → ¬ before.Shares place q → after.view q = before.view q

/-- Places that share no file with others. -/
def Closed (disk : Disk) (places : Set (List String)) : Prop :=
  ∀ place ∈ places, ∀ q, disk.Shares place q → q ∈ places

/-- **A change among some places**: no directory or link has changed, nothing
has changed elsewhere, and the places share no file with others. -/
structure Within (before after : Disk) (places : Set (List String)) : Prop where
  sameWay : before.SameWay after
  elsewhere : ∀ q, q ∉ places → after.view q = before.view q
  closed : after.Closed places

variable {before between after disk : Disk} {host : Host} {followLast : Bool}
  {place origin goal above : List String} {name : String} {p source destination : Path}
  {content : Bytes} {number : Option Nat} {k : Nat} {now : Option FileNode}
  {places : Set (List String)}
  {change : Option FileNode → Option FileNode}

/-- A change that no directory or link comes or goes with. -/
theorem Sets.sameWay (h : before.Sets after place now) (hold : before.way place = none)
    (hnow : now.bind FileNode.way? = none) : before.SameWay after := by
  refine ⟨h.workingDirectory, fun q => ?_⟩
  rcases eq_or_ne q place with rfl | hne
  · rw [hold, way, h.there, hnow]
  · rw [way, way, h.elsewhere q hne]

/-- The top of a disk is the directory that all steps start from. -/
theorem way_nil (htop : disk.top.isDirectory) : disk.way [] = some (.directory []) := by
  rw [way_eq, FileNode.at?, Option.bind_some]
  cases hnode : disk.top with
  | directory => rfl
  | file | link =>
    rw [hnode] at htop
    cases htop

theorem isDirectory_top (h : disk.way [] = some (.directory [])) : disk.top.isDirectory := by
  obtain ⟨entries, hat⟩ := way_eq_directory_iff.1 h
  rw [Option.some.inj hat]
  rfl

theorem SameWay.isDirectory_top (h : before.SameWay after) (htop : before.top.isDirectory) :
    after.top.isDirectory :=
  Disk.isDirectory_top ((h.way []).trans (way_nil htop))

/-- What no directory stands at. -/
theorem isDirectory_eq_false (h : disk.view place ≠ some (.directory [])) (node : FileNode)
    (hat : disk.top.at? place = some node) : node.isDirectory = false := by
  cases node with
  | file | link => rfl
  | directory => exact absurd (by rw [view, hat]; rfl) h

/-- **A change in a directory** that no directory comes or goes with. -/
theorem sets_alter (habove : disk.way above = some (.directory []))
    (hold : disk.view (above ++ [name]) ≠ some (.directory []))
    (hnew : ∀ node, change (disk.top.at? (above ++ [name])) = some node →
      node.isDirectory = false) :
    disk.Sets { disk with top := disk.top.alter change (above ++ [name]) } (above ++ [name])
      ((change (disk.top.at? (above ++ [name]))).map FileNode.bare) := by
  obtain ⟨entries, hat⟩ := way_eq_directory_iff.1 habove
  refine ⟨rfl, ?_, fun q hne => ?_⟩
  · rw [view, FileNode.at?_alter hat rfl]
  · exact FileNode.bare_at?_alter hat rfl (isDirectory_eq_false hold) hnew hne

/-! ## The place of an operation -/

/-- Where a path leads is the top or in a directory. -/
theorem exists_above_of_place (htop : disk.top.isDirectory)
    (h : disk.place p followLast = .ok place) (hne : place ≠ []) :
    ∃ above name, place = above ++ [name] ∧ disk.way above = some (.directory []) :=
  (Disk.place_eq_ok_iff.1 h).2.exists_above (way_nil htop) (way_nil htop) hne

/-- A path without links leads to no link, and to the same place whether or
not links are followed. -/
theorem Linkless.place_eq (hp : disk.Linkless p) (h : disk.place p followLast = .ok place)
    (follow : Bool) : disk.place p follow = .ok place :=
  Disk.place_eq_ok_iff.2 ⟨(Disk.place_eq_ok_iff.1 h).1,
    (locate_eq_ok_iff.1 (hp followLast place h)).of_zero follow linkLimit⟩

/-- A path that is followed leads to no link. -/
theorem way_eq_none_of_place (htop : disk.top.isDirectory) (h : disk.place p true = .ok place)
    (hnot : disk.view place ≠ some (.directory [])) : disk.way place = none := by
  have hlink := (Disk.place_eq_ok_iff.1 h).2.way_ne_link (way_nil htop) (way_nil htop)
  rw [way_eq] at hlink ⊢
  rw [view] at hnot
  rcases hat : disk.top.at? place with _ | _ | target | entries
  · rfl
  · rfl
  · rw [hat] at hlink
    exact absurd rfl (hlink target)
  · rw [hat] at hnot
    exact absurd rfl hnot

theorem Linkless.way_eq_none (htop : disk.top.isDirectory) (hp : disk.Linkless p)
    (h : disk.place p followLast = .ok place) (hnot : disk.view place ≠ some (.directory [])) :
    disk.way place = none :=
  way_eq_none_of_place htop (hp.place_eq h true) hnot

/-- No link is at the end of a path without links. -/
theorem Linkless.unlinked (htop : disk.top.isDirectory) (hp : disk.Linkless p) :
    disk.Unlinked p := by
  intro place target hplace hview
  have hlink := (Disk.place_eq_ok_iff.1 (hp.place_eq hplace true)).2.way_ne_link (way_nil htop)
    (way_nil htop) target
  rw [way, hview] at hlink
  exact hlink rfl

/-- **A file that may be written** has a place that is not the top, where no
directory stands. -/
theorem target_eq_ok_iff : disk.target p followLast = .ok place ↔
    disk.place p followLast = .ok place ∧ place ≠ [] ∧
      disk.view place ≠ some (.directory []) := by
  have hview : disk.view place ≠ some (.directory []) ↔
      ∀ entries, disk.top.at? place ≠ some (.directory entries) := by
    rw [view]
    rcases disk.top.at? place with _ | _ | _ | _ <;> simp [FileNode.bare]
  rw [hview]
  constructor
  · intro h
    obtain ⟨there, hplace, h⟩ := exists_of_bind_eq_ok h
    by_cases hempty : there.isEmpty
    · rw [if_pos hempty] at h
      cases h
    · rw [if_neg hempty] at h
      rcases hat : disk.top.at? there with _ | _ | target | entries <;>
        simp only [hat] at h <;> cases h
      all_goals exact ⟨hplace, by simpa using hempty, by simp [hat]⟩
  · rintro ⟨hplace, hne, hold⟩
    rw [target, hplace]
    simp only [bind, Except.bind, List.isEmpty_eq_false_iff.2 hne]
    rcases hat : disk.top.at? place with _ | _ | target | entries
    · rfl
    · rfl
    · rfl
    · exact absurd hat (hold entries)

theorem view_eq_directory_iff :
    disk.view place = some (.directory []) ↔ disk.way place = some (.directory []) := by
  rw [way, view]
  rcases disk.top.at? place with _ | _ | _ | _ <;> simp [FileNode.bare, FileNode.way?]

/-- A file may be written wherever it might be before, as long as directories
and links are the same. -/
theorem SameWay.target_eq_ok_iff (h : before.SameWay after) :
    after.target p followLast = .ok place ↔ before.target p followLast = .ok place := by
  simp only [Disk.target_eq_ok_iff, h.place_eq_ok_iff, Ne, view_eq_directory_iff, h.way]

/-- The view of a file that was put somewhere. -/
theorem sets_put (htop : disk.top.isDirectory) (h : disk.place p followLast = .ok place)
    (hne : place ≠ []) (hold : disk.view place ≠ some (.directory [])) (content : Bytes)
    (number : Option Nat) :
    disk.Sets { disk with top := disk.top.put place (.file content number) } place
      (some (.file content number)) := by
  obtain ⟨above, name, rfl, habove⟩ := exists_above_of_place htop h hne
  refine sets_alter habove hold ?_
  rintro _ ⟨⟩
  rfl

/-- The view of a file that was removed. -/
theorem sets_remove (h : disk.view place = some (.file content number)) (hne : place ≠ []) :
    disk.Sets { disk with top := disk.top.remove place } place none := by
  obtain ⟨above, name, rfl⟩ : ∃ above name, place = above ++ [name] :=
    ⟨_, _, (List.dropLast_append_getLast hne).symm⟩
  have habove := way_above (Option.isSome_of_eq_some h) (List.prefix_append above [name])
    (by simp : above ≠ above ++ [name])
  refine sets_alter habove (by rw [h]; nofun) ?_
  rintro _ ⟨⟩

/-! ## Files of several names -/

/-- New content of a file shows at all its names. -/
theorem view_refill (disk : Disk) (number : Nat) (content : Bytes) (q : List String) :
    (⟨disk.top.refill number content, disk.workingDirectory⟩ : Disk).view q =
      (disk.view q).map fun node => node.refill number content := by
  rw [view, view, FileNode.at?_refill, Option.map_map, Option.map_map]
  exact Option.map_congr fun node _ => FileNode.bare_refill number content node

theorem view_eq_file_iff : disk.view place = some (.file content number) ↔
    disk.top.at? place = some (.file content number) := by
  rw [view]
  rcases disk.top.at? place with _ | _ | _ | _ <;> simp [FileNode.bare]

theorem numberAt_eq (disk : Disk) (place : List String) :
    disk.numberAt place = (disk.top.at? place).bind FileNode.number? := by
  rw [numberAt, view]
  rcases disk.top.at? place with _ | _ | _ | _ <;> rfl

theorem Sets.numberAt_elsewhere (h : before.Sets after place now) {q : List String}
    (hq : q ≠ place) : after.numberAt q = before.numberAt q := by
  rw [Disk.numberAt, h.elsewhere q hq, Disk.numberAt]

theorem Sets.numberAt_there (h : before.Sets after place now) :
    after.numberAt place = now.bind FileNode.number? := by
  rw [Disk.numberAt, h.there]

/-- A file of one name that has new content is all that has changed. -/
theorem Filled.sets (h : before.Filled after place content) (hsole : before.numberAt place = none) :
    before.Sets after place (some (.file content)) := by
  refine ⟨h.sameWay.workingDirectory, hsole ▸ h.there, fun q hq => h.elsewhere q hq ?_⟩
  rintro ⟨number, hnumber, -⟩
  rw [hsole] at hnumber
  cases hnumber

/-- A change at the place of no file of several names. -/
theorem Sets.filled (h : before.Sets after place (some (.file content)))
    (hway : before.way place = none) (hsole : before.numberAt place = none) :
    before.Filled after place content where
  sameWay := h.sameWay hway rfl
  there := hsole ▸ h.there
  numberAt q := by
    rcases eq_or_ne q place with rfl | hq
    · rw [h.numberAt_there, hsole]
      rfl
    · exact h.numberAt_elsewhere hq
  elsewhere q hq _ := h.elsewhere q hq

/-- A change of a file at all its names. -/
theorem filled_refill (h : disk.view place = some (.file content (some k))) (new : Bytes) :
    disk.Filled { disk with top := disk.top.refill k new } place new := by
  have hnumber : disk.numberAt place = some k := by
    rw [numberAt, h]
    rfl
  refine ⟨⟨rfl, fun q => ?_⟩, ?_, fun q => ?_, fun q _ hq => ?_⟩
  · rw [way, view_refill, way, view, Option.map_map]
    cases disk.top.at? q with
    | none => rfl
    | some node => cases node <;> rfl
  · rw [view_refill, h, hnumber, Option.map_some, FileNode.refill, if_pos rfl]
  · rw [numberAt, view_refill, numberAt]
    cases disk.view q with
    | none => rfl
    | some node => cases node <;> rfl
  · rw [view_refill, view, Option.map_map]
    refine Option.map_congr fun node hnode => FileNode.refill_of_number?_ne (fun hsame => hq ?_) new
    exact ⟨k, hnumber, by rw [numberAt_eq, hnode]; exact hsame⟩

/-- **The content of a file is changed** under all its names. -/
theorem filled_fill (htop : disk.top.isDirectory) (h : disk.place p true = .ok place)
    (hne : place ≠ []) (hold : disk.view place ≠ some (.directory [])) (content : Bytes) :
    disk.Filled (disk.fill place content) place content := by
  have hway := way_eq_none_of_place htop h hold
  have hset := sets_put htop h hne hold content none
  rw [fill]
  rcases way_eq_none_iff.1 hway with hat | ⟨old, _ | number, hat⟩ <;> simp only [hat]
  · exact hset.filled hway (by rw [numberAt_eq, hat]; rfl)
  · exact hset.filled hway (by rw [numberAt_eq, hat]; rfl)
  · exact filled_refill (view_eq_file_iff.2 hat) content

/-- What may be done at a place has been allowed by the host. -/
theorem allow_eq_ok_iff {operation : FileOperation} {u : Unit} :
    host.allow disk operation = .ok u ↔ host.refusal? disk operation = none := by
  rw [Host.allow]
  cases host.refusal? disk operation <;> simp

/-! ## Operations -/

/-- **How the writing of a file can end**: it was refused, or the file has new
content. That is what was to be written, or the beginning of it if the file was
broken off. -/
theorem write_cases {result : Except FileFault Unit} (htop : disk.top.isDirectory)
    (h : disk.write p content host = (after, result)) :
    (after = disk ∧ ∃ fault, result = .error fault) ∨
    ∃ place written, disk.place p true = .ok place ∧ disk.Filled after place written ∧
      ∀ u, result = .ok u → written = content := by
  rw [write] at h
  split at h
  case h_1 fault _ =>
    obtain ⟨rfl, rfl⟩ := Prod.mk.inj h
    exact .inl ⟨rfl, fault, rfl⟩
  case h_2 place hasked =>
    obtain ⟨there, htarget, hasked⟩ := exists_of_bind_eq_ok hasked
    obtain ⟨-, -, hthere⟩ := exists_of_bind_eq_ok hasked
    obtain rfl : there = place := Except.ok.inj hthere
    obtain ⟨hplace, hne, hold⟩ := target_eq_ok_iff.1 htarget
    rw [Host.fill] at h
    split at h <;> obtain ⟨rfl, rfl⟩ := Prod.mk.inj h
    · exact .inr ⟨there, _, hplace, filled_fill htop hplace hne hold _, nofun⟩
    · exact .inr ⟨there, content, hplace, filled_fill htop hplace hne hold _, fun _ _ => rfl⟩

/-- **How the moving of a file can end**: it stays because it has both names
already, or it is no longer at its place and stands at the other one. -/
theorem move_cases (htop : disk.top.isDirectory)
    (hfile : disk.view origin = some (.file content number))
    (hgoal : disk.place destination false = .ok goal) (hne : goal ≠ [])
    (hold : disk.view goal ≠ some (.directory [])) :
    (disk.Shares origin goal ∧ disk.move origin goal (.file content number) = disk) ∨
    ∃ between, disk.Sets between origin none ∧
      between.Sets (disk.move origin goal (.file content number)) goal
        (some (.file content number)) := by
  have hat := view_eq_file_iff.1 hfile
  have hdown : origin ≠ [] := by
    rintro rfl
    rw [FileNode.at?] at hat
    rw [Option.some.inj hat] at htop
    cases htop
  have hgone := sets_remove hfile hdown
  obtain ⟨above, name, rfl, habove⟩ := exists_above_of_place htop hgoal hne
  have hmoved : (⟨disk.top.remove origin, disk.workingDirectory⟩ : Disk).Sets
      ⟨(disk.top.remove origin).put (above ++ [name]) (.file content number),
        disk.workingDirectory⟩ (above ++ [name]) (some (.file content number)) := by
    -- the directory of the goal is not what was moved away
    have hother : above ≠ origin := by
      rintro rfl
      rw [way, hfile] at habove
      cases habove
    refine sets_alter ?_ ?_ ?_
    · rw [way, hgone.elsewhere above hother]
      exact habove
    · rcases eq_or_ne (above ++ [name]) origin with hsame | hother
      · rw [hsame, hgone.there]
        exact (Option.some_ne_none _).symm
      · rwa [hgone.elsewhere _ hother]
    · rintro _ ⟨⟩
      rfl
  unfold move
  split
  case h_1 k old other hown hthere =>
    split
    case isTrue hsame =>
      refine .inl ⟨⟨k, ?_, ?_⟩, rfl⟩
      · rw [numberAt_eq, hat, hown]
        rfl
      · rw [numberAt_eq, hthere, hsame]
        rfl
    case isFalse => exact .inr ⟨_, hgone, hmoved⟩
  case h_2 => exact .inr ⟨_, hgone, hmoved⟩

/-- **A file that is moved** was there, and its goal may be written. -/
theorem exists_move_of_rename (hsource : disk.place source false = .ok origin)
    (hfile : disk.view origin = some (.file content number))
    (h : disk.rename source destination host = .ok after) :
    ∃ goal, disk.place destination false = .ok goal ∧ goal ≠ [] ∧
      disk.view goal ≠ some (.directory []) ∧
      after = disk.move origin goal (.file content number) := by
  obtain ⟨there, hthere, h⟩ := exists_of_bind_eq_ok h
  obtain rfl : there = origin := Except.ok.inj (hthere.symm.trans hsource)
  rw [view_eq_file_iff.1 hfile] at h
  obtain ⟨goal, htarget, h⟩ := exists_of_bind_eq_ok h
  obtain ⟨-, -, h⟩ := exists_of_bind_eq_ok h
  obtain ⟨hgoal, hne, hold⟩ := target_eq_ok_iff.1 htarget
  exact ⟨goal, hgoal, hne, hold, (Except.ok.inj h).symm⟩

/-- **A file that is made can be removed again**, and then the disk is as it
was, unless the host refuses the removal. -/
theorem removeFile_of_create {made : Disk} (htop : disk.top.isDirectory)
    (h : disk.create p host = .ok made) :
    ∃ place, made.place p false = .ok place ∧ made.removeFile p host =
      (host.allow made (.remove place)).map fun _ => disk := by
  obtain ⟨place, hplace, h⟩ := exists_of_bind_eq_ok h
  by_cases hthere : place.isEmpty ∨ (disk.top.at? place).isSome
  · rw [if_pos hthere] at h
    cases h
  rw [if_neg hthere] at h
  obtain ⟨-, -, h⟩ := exists_of_bind_eq_ok h
  cases h
  rw [not_or, Option.not_isSome_iff_eq_none, List.isEmpty_iff] at hthere
  obtain ⟨hne, hnone⟩ := hthere
  have hmade := sets_put htop hplace hne (by simp [view, hnone]) [] none
  have hplace' := (hmade.sameWay (way_eq_none_iff.2 (.inl hnone)) rfl).place_eq_ok_iff.2 hplace
  have htarget := target_eq_ok_iff.2 ⟨hplace', hne, by simp [hmade.there]⟩
  refine ⟨place, hplace', ?_⟩
  rw [removeFile, htarget]
  simp only [bind, Except.bind, view_eq_file_iff.1 hmade.there, Option.isNone_some,
    Bool.false_eq_true, if_false, FileNode.remove_put hnone]
  rfl

/-- Something is held where it stands. -/
theorem holds_eq (h : disk.place p true = .ok place) :
    disk.holds p = (disk.top.at? place).isSome := by
  rw [holds, find, h]
  simp only [bind, Except.bind]
  cases disk.top.at? place <;> rfl

/-- **A file that is read** is the one where the path leads. -/
theorem read_eq_ok_iff : disk.read p = .ok content ↔
    ∃ place number, disk.place p true = .ok place ∧
      disk.view place = some (.file content number) := by
  constructor
  · intro h
    obtain ⟨⟨place, node⟩, hfind, h⟩ := exists_of_bind_eq_ok h
    obtain ⟨there, hplace, hfind⟩ := exists_of_bind_eq_ok hfind
    rcases hat : disk.top.at? there with _ | node <;> rw [hat] at hfind <;> cases hfind
    rcases node with ⟨held, number⟩ | _ | _ <;> cases h
    exact ⟨place, number, hplace, view_eq_file_iff.2 hat⟩
  · rintro ⟨place, number, hplace, hfile⟩
    rw [read, find, hplace]
    simp only [bind, Except.bind, view_eq_file_iff.1 hfile]
    rfl

/-- What is read is the content of what stands there. -/
theorem toOption_read (h : disk.place p true = .ok place) :
    (disk.read p).toOption = match disk.top.at? place with
      | some (.file content _) => some content
      | _ => none := by
  rw [read, find, h]
  simp only [bind, Except.bind]
  rcases disk.top.at? place with _ | _ | _ | _ <;> rfl

/-- A path to what has not changed is read as before. -/
theorem SameWay.read_eq (h : before.SameWay after)
    (hview : ∀ place, before.place p true = .ok place → after.view place = before.view place) :
    (after.read p).toOption = (before.read p).toOption := by
  refine toOption_eq_of_iff fun content => ?_
  rw [read_eq_ok_iff, read_eq_ok_iff]
  refine exists_congr fun place => exists_congr fun number => ?_
  rw [h.place_eq_ok_iff]
  exact and_congr_right fun hplace => by rw [hview place hplace]

/-! ## Changes among some places -/

theorem closed_univ (disk : Disk) : disk.Closed Set.univ := fun _ _ _ _ => Set.mem_univ _

theorem Within.refl (h : disk.Closed places) : disk.Within disk places :=
  ⟨.refl disk, fun _ _ => rfl, h⟩

theorem Within.trans (h : before.Within between places) (h' : between.Within after places) :
    before.Within after places :=
  ⟨h.sameWay.trans h'.sameWay, fun q hq => (h'.elsewhere q hq).trans (h.elsewhere q hq), h'.closed⟩

/-- The content of a file changes at places that it shares. -/
theorem Filled.within (h : before.Filled after place content) (hclosed : before.Closed places)
    (hplace : place ∈ places) : before.Within after places := by
  refine ⟨h.sameWay, fun q hq => h.elsewhere q ?_ fun hshares => ?_, fun there hthere q hq => ?_⟩
  · rintro rfl
    exact hq hplace
  · exact hq (hclosed place hplace q hshares)
  · obtain ⟨k, hk, hk'⟩ := hq
    rw [h.numberAt] at hk hk'
    exact hclosed there hthere q ⟨k, hk, hk'⟩

/-- **A file that is moved** takes its number along. -/
theorem within_move (htop : disk.top.isDirectory) (hclosed : disk.Closed places)
    (hfile : disk.view origin = some (.file content number))
    (hgoal : disk.place destination false = .ok goal) (hne : goal ≠ [])
    (hway : disk.way goal = none) (horigin : origin ∈ places) (hthere : goal ∈ places) :
    disk.Within (disk.move origin goal (.file content number)) places := by
  have hold : disk.view goal ≠ some (.directory []) := by
    intro hdir
    rw [way, hdir] at hway
    cases hway
  obtain ⟨-, hsame⟩ | ⟨between, hgone, hmoved⟩ := move_cases htop hfile hgoal hne hold
  · rw [hsame]
    exact .refl hclosed
  generalize disk.move origin goal (.file content number) = after at hmoved
  have hsame : disk.SameWay between := hgone.sameWay (by rw [way, hfile]; rfl) rfl
  have helse : ∀ q, q ∉ places → after.view q = disk.view q := by
    intro q hq
    have hgoal' : q ≠ goal := fun heq => hq (heq ▸ hthere)
    have horigin' : q ≠ origin := fun heq => hq (heq ▸ horigin)
    rw [hmoved.elsewhere q hgoal', hgone.elsewhere q horigin']
  refine ⟨hsame.trans (hmoved.sameWay ((hsame.way goal).trans hway) rfl), helse, ?_⟩
  rintro there hmem q ⟨k, hk, hk'⟩
  by_contra hq
  rw [numberAt, helse q hq] at hk'
  rcases eq_or_ne there goal with rfl | hgoal'
  · -- the number at the goal is that of the origin
    rw [hmoved.numberAt_there] at hk
    exact hq (hclosed origin horigin q ⟨k, by rw [numberAt, hfile]; exact hk, hk'⟩)
  rw [hmoved.numberAt_elsewhere hgoal'] at hk
  rcases eq_or_ne there origin with rfl | horigin'
  · rw [hgone.numberAt_there] at hk
    cases hk
  · rw [hgone.numberAt_elsewhere horigin'] at hk
    exact hq (hclosed there hmem q ⟨k, hk, hk'⟩)

/-! ## Operations that succeed -/

/-- **A file is made** where nothing is. -/
theorem create_eq (h : disk.place p false = .ok place) (hne : place ≠ [])
    (hnone : disk.top.at? place = none) (hallow : host.refusal? disk (.create place) = none) :
    disk.create p host = .ok { disk with top := disk.top.put place (.file []) } := by
  have hasked : host.allow disk (.create place) = .ok () := allow_eq_ok_iff.2 hallow
  rw [create, h]
  simp only [bind, Except.bind, hnone, List.isEmpty_eq_false_iff.2 hne, hasked]
  rfl

/-- A file that may be written is written as far as the host does. -/
theorem write_eq (h : disk.target p true = .ok place)
    (hallow : host.refusal? disk (.write place) = none) (content : Bytes) :
    disk.write p content host = host.fill disk place content := by
  have hasked : host.allow disk (.write place) = .ok () := allow_eq_ok_iff.2 hallow
  rw [write, h]
  simp only [bind, Except.bind, hasked]
  rfl

/-- A file that is there is moved to a place that may be written. -/
theorem rename_eq (hsource : disk.place source false = .ok origin)
    (hthere : disk.view origin = some (.file content number))
    (hgoal : disk.target destination false = .ok goal)
    (hallow : host.refusal? disk (.rename origin goal) = none) :
    disk.rename source destination host = .ok (disk.move origin goal (.file content number)) := by
  have hasked : host.allow disk (.rename origin goal) = .ok () := allow_eq_ok_iff.2 hallow
  rw [rename, hsource]
  simp only [bind, Except.bind, view_eq_file_iff.1 hthere, hgoal, hasked]
  rfl

end Disk

end Remedy
