import Mathlib.Data.List.Basic
import Remedy.Files.Disk
import Remedy.Proofs.Files.Places
/-!
# Where steps lead

Steps lead to a place through directories and links alone: `Disk.Leads` has
a rule for each of the steps that succeed (`Disk.locate_eq_ok_iff`). So they
lead to the same place on any disk with the same directories and links
(`Disk.SameWay.place_eq_ok_iff`), and the place is in a directory
(`Disk.Leads.exists_above`). Where no link has to be followed, the names at
the end of the steps are the names at the end of the place
(`Disk.Leads.exists_names`). Where none stands at the end, it does not matter
whether links are followed there (`Disk.Unlinked.place_eq`).
-/

namespace Remedy

/-- What a node is good for on the way to others: a directory or a link. -/
def FileNode.way? : FileNode → Option FileNode
  | .file .. => none
  | .link target => some (.link target)
  | .directory _ => some (.directory [])

namespace Disk

/-- **What stands at a place**, on its own. -/
def view (disk : Disk) (place : List String) : Option FileNode :=
  (disk.top.at? place).map FileNode.bare

/-- What a place is good for on the way to others. -/
def way (disk : Disk) (place : List String) : Option FileNode :=
  (disk.view place).bind FileNode.way?

/-- **Two disks with the same directories and links.** -/
structure SameWay (before after : Disk) : Prop where
  workingDirectory : after.workingDirectory = before.workingDirectory
  way : ∀ place, after.way place = before.way place

/-- **Steps lead from a directory to a place**, with so many links to spare.
The last name need not be there. -/
inductive Leads (disk : Disk) (followLast : Bool) :
    Nat → List String → List PathComponent → List String → Prop
  | arrived {links : Nat} {here : List String} : Leads disk followLast links here [] here
  | root {links : Nat} {here place : List String} {rest : List PathComponent} :
      Leads disk followLast links [] rest place →
      Leads disk followLast links here (.root :: rest) place
  | current {links : Nat} {here place : List String} {rest : List PathComponent} :
      Leads disk followLast links here rest place →
      Leads disk followLast links here (.current :: rest) place
  | parent {links : Nat} {here place : List String} {rest : List PathComponent} :
      Leads disk followLast links here.dropLast rest place →
      Leads disk followLast links here (.parent :: rest) place
  /-- A file, or nothing yet. -/
  | last {links : Nat} {here : List String} {name : String} :
      disk.way (here ++ [name]) = none →
      Leads disk followLast links here [.name name] (here ++ [name])
  /-- A link that is not followed. -/
  | lastLink {links : Nat} {here : List String} {name target : String} :
      disk.way (here ++ [name]) = some (.link target) → followLast = false →
      Leads disk followLast links here [.name name] (here ++ [name])
  | enter {links : Nat} {here place : List String} {name : String} {rest : List PathComponent} :
      disk.way (here ++ [name]) = some (.directory []) →
      Leads disk followLast links (here ++ [name]) rest place →
      Leads disk followLast links here (.name name :: rest) place
  | follow {links : Nat} {here place : List String} {name target : String}
      {rest : List PathComponent} :
      disk.way (here ++ [name]) = some (.link target) → ¬ (rest = [] ∧ followLast = false) →
      Leads disk followLast links here ((⟨target⟩ : Path).steps ++ rest) place →
      Leads disk followLast (links + 1) here (.name name :: rest) place

variable {before after disk : Disk} {followLast : Bool} {links : Nat} {here place q : List String}
  {steps : List PathComponent} {p : Path}

theorem way_eq (disk : Disk) (place : List String) :
    disk.way place = (disk.top.at? place).bind FileNode.way? := by
  rw [way, view]
  rcases disk.top.at? place with _ | _ | _ | _ <;> rfl

/-- A directory on the way is one that stands there, -/
theorem way_eq_directory_iff : disk.way place = some (.directory []) ↔
    ∃ entries, disk.top.at? place = some (.directory entries) := by
  rw [way_eq]
  rcases disk.top.at? place with _ | _ | _ | entries <;> simp [FileNode.way?]

/-- and so is a link. -/
theorem way_eq_link_iff {target : String} : disk.way place = some (.link target) ↔
    disk.top.at? place = some (.link target) := by
  rw [way_eq]
  rcases disk.top.at? place with _ | _ | _ | entries <;> simp [FileNode.way?]

/-- A way ends at a file, and where nothing stands. -/
theorem way_eq_none_iff : disk.way place = none ↔
    disk.top.at? place = none ∨
      ∃ content number, disk.top.at? place = some (.file content number) := by
  rw [way_eq]
  rcases disk.top.at? place with _ | _ | _ | entries <;> simp [FileNode.way?]

/-- **On the way to what is there** are directories. -/
theorem way_above {part : List String} (hthere : (disk.view place).isSome)
    (hpart : part <+: place) (hne : part ≠ place) : disk.way part = some (.directory []) := by
  obtain ⟨rest, rfl⟩ := hpart
  have hrest : rest ≠ [] := by
    rintro rfl
    exact hne (List.append_nil part).symm
  rw [view, Option.isSome_map, FileNode.at?_append] at hthere
  obtain ⟨child, hchild⟩ := Option.isSome_iff_exists.1 hthere
  obtain ⟨node, hnode, hbelow⟩ := Option.bind_eq_some_iff.1 hchild
  cases node with
  | directory entries => exact way_eq_directory_iff.2 ⟨entries, hnode⟩
  | file | link =>
    rw [FileNode.at?_of_not_isDirectory rfl hrest] at hbelow
    cases hbelow

/-- No link is on the way to a file, nor at its place. -/
theorem way_ne_link_above {part : List String} {content : Bytes} {number : Option Nat}
    (hfile : disk.view place = some (.file content number)) (hpart : part <+: place)
    (target : String) :
    disk.way part ≠ some (.link target) := by
  by_cases hpart' : part = place
  · rw [hpart', way, hfile]
    nofun
  · rw [way_above (Option.isSome_of_eq_some hfile) hpart hpart']
    nofun

/-- **A search that succeeds follows the rules**, -/
theorem leads_of_locate (h : disk.locate followLast links here steps = .ok place) :
    disk.Leads followLast links here steps place := by
  induction links, here, steps using Disk.locate.induct disk followLast with
  | case1 links here =>
    rw [locate] at h
    cases h
    exact .arrived
  | case2 links here rest ih =>
    rw [locate] at h
    exact .root (ih h)
  | case3 links here rest ih =>
    rw [locate] at h
    exact .current (ih h)
  | case4 links here rest ih =>
    rw [locate] at h
    exact .parent (ih h)
  | case5 links here name rest next hat hrest =>
    simp only [locate, next, hat, hrest, if_true] at h
    cases h
    rw [List.isEmpty_iff.1 hrest]
    exact .last (way_eq_none_iff.2 (.inl hat))
  | case6 links here name rest next hat hrest =>
    simp only [locate, next, hat, hrest] at h
    cases h
  | case7 links here name rest next content number hat hrest =>
    simp only [locate, next, hat, hrest, if_true] at h
    cases h
    rw [List.isEmpty_iff.1 hrest]
    exact .last (way_eq_none_iff.2 (.inr ⟨content, number, hat⟩))
  | case8 links here name rest next content number hat hrest =>
    simp only [locate, next, hat, hrest] at h
    cases h
  | case9 links here name rest next entries hat ih =>
    simp only [locate, next, hat] at h
    exact .enter (way_eq_directory_iff.2 ⟨entries, hat⟩) (ih h)
  | case10 links here name rest next target hat hend =>
    simp only [locate, next, hat, hend, and_self, if_true] at h
    cases h
    rw [List.isEmpty_iff.1 hend.1]
    exact .lastLink (way_eq_link_iff.2 hat) (by simpa using hend.2)
  | case11 here name rest next target hat hend =>
    simp only [locate, next, hat, hend, if_false] at h
    cases h
  | case12 here name rest next target hat hend links ih =>
    simp only [locate, next, hat, hend, if_false] at h
    refine .follow (way_eq_link_iff.2 hat) (fun hlast => hend ?_) (ih h)
    rw [hlast.1, hlast.2]
    exact ⟨rfl, rfl⟩

/-- and the rules lead a search to its place. -/
theorem Leads.locate_eq (h : disk.Leads followLast links here steps place) :
    disk.locate followLast links here steps = .ok place := by
  induction h with
  | arrived => rw [locate]
  | root _ ih => rwa [locate]
  | current _ ih => rwa [locate]
  | parent _ ih => rwa [locate]
  | last hway =>
    rcases way_eq_none_iff.1 hway with hat | ⟨content, number, hat⟩ <;> rw [locate, hat] <;> rfl
  | lastLink hway hfollow =>
    rw [locate, way_eq_link_iff.1 hway]
    simp only [hfollow, List.isEmpty_nil, Bool.not_false, and_self, if_true]
  | enter hway _ ih =>
    obtain ⟨entries, hat⟩ := way_eq_directory_iff.1 hway
    rw [locate, hat]
    exact ih
  | @follow links here place name target rest hway hend _ ih =>
    have hgoes : ¬ (rest.isEmpty = true ∧ (!followLast) = true) := by simpa using hend
    rw [locate, way_eq_link_iff.1 hway]
    simp only [hgoes, if_false]
    exact ih

theorem locate_eq_ok_iff : disk.locate followLast links here steps = .ok place ↔
    disk.Leads followLast links here steps place :=
  ⟨leads_of_locate, Leads.locate_eq⟩

/-- **Steps lead to the same place** past the same directories and links. -/
theorem Leads.congr (hway : ∀ place, after.way place = before.way place)
    (h : before.Leads followLast links here steps place) :
    after.Leads followLast links here steps place := by
  induction h with
  | arrived => exact .arrived
  | root _ ih => exact .root ih
  | current _ ih => exact .current ih
  | parent _ ih => exact .parent ih
  | last hlast => exact .last ((hway _).trans hlast)
  | lastLink hlink hfollow => exact .lastLink ((hway _).trans hlink) hfollow
  | enter hdir _ ih => exact .enter ((hway _).trans hdir) ih
  | follow hlink hend _ ih => exact .follow ((hway _).trans hlink) hend ih

/-- A directory that is not the top is in a directory. -/
theorem exists_above_of_directory (h : disk.way place = some (.directory [])) (hne : place ≠ []) :
    ∃ above name, place = above ++ [name] ∧ disk.way above = some (.directory []) := by
  have hplace : place.dropLast ++ [place.getLast hne] = place := List.dropLast_append_getLast hne
  obtain ⟨entries, hat⟩ := way_eq_directory_iff.1 h
  rw [← hplace] at hat
  obtain ⟨above, habove, hdir⟩ := FileNode.isDirectory_above (Option.isSome_of_eq_some hat)
  refine ⟨place.dropLast, place.getLast hne, hplace.symm, ?_⟩
  cases above with
  | file | link => cases hdir
  | directory entries => exact way_eq_directory_iff.2 ⟨entries, habove⟩

/-- A step back from a directory leads to one. -/
theorem way_dropLast (htop : disk.way [] = some (.directory []))
    (hhere : disk.way here = some (.directory [])) :
    disk.way here.dropLast = some (.directory []) := by
  rcases eq_or_ne here [] with rfl | hdown
  · exact htop
  · obtain ⟨above, name, rfl, habove⟩ := exists_above_of_directory hhere hdown
    rwa [List.dropLast_concat]

/-- **Where steps lead is the top or in a directory.** -/
theorem Leads.exists_above (h : disk.Leads followLast links here steps place)
    (htop : disk.way [] = some (.directory [])) (hhere : disk.way here = some (.directory []))
    (hne : place ≠ []) :
    ∃ above name, place = above ++ [name] ∧ disk.way above = some (.directory []) := by
  induction h with
  | arrived => exact exists_above_of_directory hhere hne
  | root _ ih => exact ih htop hne
  | current _ ih => exact ih hhere hne
  | parent _ ih => exact ih (way_dropLast htop hhere) hne
  | last | lastLink => exact ⟨_, _, rfl, hhere⟩
  | enter hdir _ ih => exact ih hdir hne
  | follow _ _ _ ih => exact ih hhere hne

/-! ## Steps without links -/

/-- What may follow the names of a path: one more step to a directory. -/
def Trailing (steps : List PathComponent) : Prop := steps = [] ∨ steps = [.current]

/-- A path takes the steps of its components, and one more if it ends like a
directory. -/
theorem exists_trail (p : Path) : ∃ trail, Trailing trail ∧ p.steps = p.components ++ trail := by
  rw [Path.steps]
  split
  · exact ⟨[.current], .inr rfl, rfl⟩
  · exact ⟨[.current], .inr rfl, rfl⟩
  · exact ⟨[], .inl rfl, (List.append_nil _).symm⟩

/-- Names lead to the place of these names. -/
theorem Leads.eq_append {names : List String} {trail : List PathComponent}
    (htrail : Trailing trail) (h : disk.Leads followLast 0 here (names.map .name ++ trail) place) :
    place = here ++ names := by
  induction names generalizing here with
  | nil =>
    rw [List.append_nil]
    rcases htrail with rfl | rfl
    · cases h
      rfl
    · cases h with
      | current h =>
        cases h
        rfl
  | cons name names ih =>
    rw [List.map_cons, List.cons_append] at h
    generalize hrest : names.map PathComponent.name ++ trail = rest at h
    cases h with
    | last | lastLink =>
      obtain ⟨hnames, -⟩ := List.append_eq_nil_iff.1 hrest
      rw [List.map_eq_nil_iff.1 hnames]
    | enter _ h =>
      rw [← hrest] at h
      rw [ih h, List.append_assoc, List.singleton_append]

/-- **Steps that end in names lead to a place that ends in them**, below the
directory that the steps ahead of them lead to. -/
theorem Leads.exists_names {names : List String} {trail : List PathComponent}
    (htrail : Trailing trail) (hne : names ≠ [])
    (h : disk.Leads followLast 0 here (steps ++ (names.map .name ++ trail)) place) :
    ∃ above, disk.Leads followLast 0 here (steps ++ [.current]) above ∧ place = above ++ names := by
  induction steps generalizing here with
  | nil => exact ⟨here, .current .arrived, h.eq_append htrail⟩
  | cons step steps ih =>
    rw [List.cons_append] at h ⊢
    generalize hrest : steps ++ (names.map PathComponent.name ++ trail) = rest at h
    have hsome : rest ≠ [] := by
      rw [← hrest]
      simp [hne]
    cases h with
    | last | lastLink => exact absurd rfl hsome
    | root h =>
      obtain ⟨above, habove, hplace⟩ := ih (hrest ▸ h)
      exact ⟨above, .root habove, hplace⟩
    | current h =>
      obtain ⟨above, habove, hplace⟩ := ih (hrest ▸ h)
      exact ⟨above, .current habove, hplace⟩
    | parent h =>
      obtain ⟨above, habove, hplace⟩ := ih (hrest ▸ h)
      exact ⟨above, .parent habove, hplace⟩
    | enter hdir h =>
      obtain ⟨above, habove, hplace⟩ := ih (hrest ▸ h)
      exact ⟨above, .enter hdir habove, hplace⟩

/-- Steps that lead on to a directory lead to it. -/
theorem Leads.of_current (h : disk.Leads followLast 0 here (steps ++ [.current]) place) :
    disk.Leads followLast 0 here steps place := by
  induction steps generalizing here with
  | nil =>
    cases h with
    | current h =>
      cases h
      exact .arrived
  | cons step steps ih =>
    rw [List.cons_append] at h
    generalize hrest : steps ++ [PathComponent.current] = rest at h
    cases h with
    | last | lastLink => exact absurd hrest (List.concat_ne_nil _ _)
    | root h => exact .root (ih (hrest ▸ h))
    | current h => exact .current (ih (hrest ▸ h))
    | parent h => exact .parent (ih (hrest ▸ h))
    | enter hdir h => exact .enter hdir (ih (hrest ▸ h))

/-- **Names lead without links** where none of the places on the way is
one. -/
theorem Leads.of_names {names : List String} {trail : List PathComponent}
    (htrail : Trailing trail)
    (hway : ∀ part, part <+: names → ∀ target, disk.way (here ++ part) ≠ some (.link target))
    (h : disk.Leads followLast links here (names.map .name ++ trail) place) :
    disk.Leads true 0 here (names.map .name ++ trail) place := by
  induction names generalizing here with
  | nil =>
    rcases htrail with rfl | rfl
    · cases h
      exact .arrived
    · cases h with
      | current h =>
        cases h
        exact .current .arrived
  | cons name names ih =>
    have hnext := hway [name] (List.cons_prefix_cons.2 ⟨rfl, List.nil_prefix⟩)
    rw [List.map_cons, List.cons_append] at h ⊢
    generalize names.map PathComponent.name ++ trail = rest at h ih ⊢
    cases h with
    | last hlast => exact .last hlast
    | lastLink hlink => exact absurd hlink (hnext _)
    | follow hlink => exact absurd hlink (hnext _)
    | enter hdir h =>
      refine .enter hdir (ih (fun part hpart => ?_) h)
      rw [List.append_assoc, List.singleton_append]
      exact hway (name :: part) (List.cons_prefix_cons.2 ⟨rfl, hpart⟩)

/-- Names lead to a link that stands in a directory. -/
theorem leads_link {names : List String} {name target : String}
    (hway : ∀ part, part <+: names → disk.way (here ++ part) = some (.directory []))
    (hlink : disk.way (here ++ (names ++ [name])) = some (.link target)) :
    disk.Leads false links here ((names ++ [name]).map .name) (here ++ (names ++ [name])) := by
  induction names generalizing here with
  | nil => exact .lastLink hlink rfl
  | cons n names ih =>
    have hdir := hway [n] (List.cons_prefix_cons.2 ⟨rfl, List.nil_prefix⟩)
    rw [List.cons_append, List.append_cons here n] at hlink ⊢
    refine .enter hdir (ih (fun part hpart => ?_) hlink)
    rw [List.append_assoc, List.singleton_append]
    exact hway (n :: part) (List.cons_prefix_cons.2 ⟨rfl, hpart⟩)

/-- What can be reached with no link to follow can be reached with some. -/
theorem Leads.of_zero (h : disk.Leads true 0 here steps place) (followLast : Bool) (links : Nat) :
    disk.Leads followLast links here steps place := by
  generalize hzero : 0 = spare at h
  induction h with
  | arrived => exact .arrived
  | root _ ih => exact .root (ih hzero)
  | current _ ih => exact .current (ih hzero)
  | parent _ ih => exact .parent (ih hzero)
  | last hlast => exact .last hlast
  | lastLink _ hfollow => cases hfollow
  | enter hdir _ ih => exact .enter hdir (ih hzero)
  | follow => cases hzero

/-- A link at the end that is to be followed is no place to be led to. -/
theorem Leads.way_ne_link (h : disk.Leads true links here steps place)
    (htop : disk.way [] = some (.directory [])) (hhere : disk.way here = some (.directory []))
    (target : String) : disk.way place ≠ some (.link target) := by
  generalize hfollow : true = followLast at h
  induction h with
  | arrived => rw [hhere]; nofun
  | root _ ih => exact ih htop
  | current _ ih => exact ih hhere
  | parent _ ih => exact ih (way_dropLast htop hhere)
  | last hlast => rw [hlast]; nofun
  | lastLink _ hno => rw [← hfollow] at hno; cases hno
  | enter hdir _ ih => exact ih hdir
  | follow _ _ _ ih => exact ih hhere

/-- **Steps that end at a link** if it is not followed, or where they end if
it is. -/
theorem Leads.unfollowed (h : disk.Leads true links here steps place) :
    disk.Leads false links here steps place ∨
      ∃ there target, disk.Leads false links here steps there ∧
        disk.way there = some (.link target) := by
  generalize hfollow : true = followLast at h
  induction h with
  | arrived => exact .inl .arrived
  | root _ ih =>
    exact ih.imp .root fun ⟨there, target, h, hlink⟩ => ⟨there, target, .root h, hlink⟩
  | current _ ih =>
    exact ih.imp .current fun ⟨there, target, h, hlink⟩ => ⟨there, target, .current h, hlink⟩
  | parent _ ih =>
    exact ih.imp .parent fun ⟨there, target, h, hlink⟩ => ⟨there, target, .parent h, hlink⟩
  | last hlast => exact .inl (.last hlast)
  | lastLink _ hno =>
    rw [← hfollow] at hno
    cases hno
  | enter hdir _ ih =>
    exact ih.imp (.enter hdir) fun ⟨there, target, h, hlink⟩ =>
      ⟨there, target, .enter hdir h, hlink⟩
  | @follow links here place name target rest hway _ _ ih =>
    by_cases hlast : rest = []
    · rw [hlast]
      exact .inr ⟨_, target, .lastLink hway rfl, hway⟩
    · have hgoes : ¬ (rest = [] ∧ false = false) := fun hend => hlast hend.1
      exact ih.imp (.follow hway hgoes) fun ⟨there, target, h, hlink⟩ =>
        ⟨there, target, .follow hway hgoes h, hlink⟩

/-- Steps lead to one place. -/
theorem Leads.unique {other : List String} (h : disk.Leads followLast links here steps place)
    (hother : disk.Leads followLast links here steps other) : place = other :=
  Except.ok.inj (h.locate_eq.symm.trans hother.locate_eq)

/-! ## Paths -/

/-- The steps of a path from the top. -/
def stepsOf (disk : Disk) (p : Path) : List PathComponent := (disk.workingDirectory.join p).steps

/-- **No link on a path**: where it leads, it leads with no link to
follow, neither on the way nor at the end. -/
def Linkless (disk : Disk) (p : Path) : Prop :=
  ∀ followLast place, disk.place p followLast = .ok place →
    disk.locate true 0 [] (disk.stepsOf p) = .ok place

/-- **No link at a path**, wherever links on the way lead. -/
def Unlinked (disk : Disk) (p : Path) : Prop :=
  ∀ place target, disk.place p false = .ok place → disk.view place ≠ some (.link target)

theorem place_eq_ok_iff : disk.place p followLast = .ok place ↔
    p.text ≠ "" ∧ disk.Leads followLast linkLimit [] (disk.stepsOf p) place := by
  rw [Disk.place]
  by_cases hempty : p.text.isEmpty
  · rw [if_pos hempty]
    simp [String.isEmpty_iff.1 hempty]
  · rw [if_neg hempty, locate_eq_ok_iff, and_iff_right]
    · rfl
    · simpa [String.isEmpty_iff] using hempty

/-- A path that can be followed with no link to spare has none. -/
theorem linkless_of_leads (h : disk.Leads true 0 [] (disk.stepsOf p) place) :
    disk.Linkless p := by
  intro followLast other hother
  obtain rfl := (h.of_zero followLast linkLimit).unique (Disk.place_eq_ok_iff.1 hother).2
  exact h.locate_eq

/-- **Where no link is at a path**, it leads to the same place if links are
not followed there. -/
theorem Unlinked.place_eq (hp : disk.Unlinked p) (h : disk.place p true = .ok place) :
    disk.place p false = .ok place := by
  obtain ⟨htext, h⟩ := Disk.place_eq_ok_iff.1 h
  rcases h.unfollowed with h | ⟨there, target, hthere, hlink⟩
  · exact Disk.place_eq_ok_iff.2 ⟨htext, h⟩
  · refine absurd ?_ (hp there target (Disk.place_eq_ok_iff.2 ⟨htext, hthere⟩))
    rw [view, way_eq_link_iff.1 hlink]
    rfl

/-- **A path leads to the same place** on a disk with the same directories
and links. -/
theorem SameWay.place_eq_ok_iff (h : before.SameWay after) :
    after.place p followLast = .ok place ↔ before.place p followLast = .ok place := by
  rw [Disk.place_eq_ok_iff, Disk.place_eq_ok_iff, stepsOf, stepsOf, h.workingDirectory]
  exact and_congr_right fun _ => ⟨.congr fun place => (h.way place).symm, .congr h.way⟩

theorem SameWay.linkless (h : before.SameWay after) (hp : before.Linkless p) :
    after.Linkless p := by
  intro followLast place hplace
  have hbefore := hp followLast place (h.place_eq_ok_iff.1 hplace)
  rw [locate_eq_ok_iff] at hbefore ⊢
  rw [stepsOf, h.workingDirectory]
  exact hbefore.congr h.way

theorem SameWay.refl (disk : Disk) : disk.SameWay disk := ⟨rfl, fun _ => rfl⟩

theorem SameWay.trans {between : Disk} (h : before.SameWay between) (h' : between.SameWay after) :
    before.SameWay after :=
  ⟨h'.workingDirectory.trans h.workingDirectory, fun place => (h'.way place).trans (h.way place)⟩

end Disk

end Remedy
