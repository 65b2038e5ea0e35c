import Mathlib
import Remedy.Proofs.Files.Operations
import Remedy.Proofs.Path.Joined
import Remedy.Proofs.Path.Names
import Remedy.Run.WriteBack
/-!
# The place beside a file

New content of a file is written under a name beside it. A place ends in the
names of its path (`WriteBack.exists_base`), so what is beside two files is at
different places if the files are (`WriteBack.apart_staging`). The files of
a report are at different places themselves, and none of them is beside another
one (`WriteBack.separate_of_listed`), since no source file has such a name
(`WriteBack.listed_of_source`).
-/

namespace Remedy

namespace WriteBack

/-- **A path as reports list it**: names from the root of the project on,
and not a name that new content is written under. -/
structure Listed (p : Path) : Prop where
  names : ∃ names : List String, names ≠ [] ∧ p.components = names.map .name
  unstaged : ∀ name, p.fileName? ≠ some (stagingName name)

variable {before after disk : Disk} {root p q target : Path} {parts : List PathComponent}
  {names above : List String} {name name' : String} {place beside : List String}

/-! ## The place beside a file -/

theorem toList_stagingName (name : String) :
    (stagingName name).toList = '.' :: (name.toList ++ ".codefixer".toList) := by
  rw [stagingName, String.toList_append, String.toList_append]
  rfl

theorem stagingName_injective (h : stagingName name = stagingName name') : name = name' := by
  have hlist := congrArg String.toList h
  rw [toList_stagingName, toList_stagingName] at hlist
  exact String.toList_inj.1 (List.append_cancel_right (List.cons.inj hlist).2)

/-- A name in a path is one that can be written out. -/
theorem plain_of_mem_components (h : .name name ∈ p.components) :
    (PathComponent.name name).Plain := by
  obtain ⟨head, tail, hcomponents, hhead, hplain⟩ := Path.exists_components p
  rw [hcomponents, List.mem_append] at h
  rcases h with h | h
  · rcases hhead with rfl | rfl | rfl <;> simp at h
  · exact hplain _ h

theorem components_stagingName (h : '/' ∉ name.toList) :
    (⟨stagingName name⟩ : Path).components = [stagingName name].map .name := by
  have hlist := toList_stagingName name
  have hlong : 2 < (stagingName name).toList.length := by
    rw [hlist, List.length_cons, List.length_append]
    have hsuffix : ".codefixer".toList.length = 10 := rfl
    omega
  have hnot : ∀ chars : List Char, chars.length ≤ 2 → (stagingName name).toList ≠ chars := by
    rintro _ hshort rfl
    omega
  have hplain : (PathComponent.name (stagingName name)).Plain := by
    constructor
    · rw [PathComponent.text, Path.component?, if_neg, if_neg (hnot _ (by decide)),
        String.ofList_toList]
      exact not_or.2 ⟨hnot _ (by decide), hnot _ (by decide)⟩
    · rw [PathComponent.text, hlist]
      simp [h]
  have hwritten : Path.ofComponents [.name (stagingName name)] = ⟨stagingName name⟩ := by
    rw [Path.ofComponents_of_plain (by simpa using hplain), List.map_singleton,
      String.intercalate_singleton, PathComponent.text]
  rw [← hwritten]
  exact Path.components_ofComponents (.relative _ (by simpa using hplain))

/-- **The components of the place beside a file**: the name changes, -/
theorem components_staging (h : target.components = parts ++ [.name name]) :
    (staging target).components = parts ++ [.name (stagingName name)] := by
  have hname : target.fileName? = some name := by
    rw [Path.fileName?, h, List.getLast?_concat]
  have hparent : target.parent? = some (Path.ofComponents parts) := by
    rw [Path.parent?, h, List.reverse_append, List.reverse_singleton, List.singleton_append]
    simp only [List.reverse_reverse]
  have hparts : (Path.ofComponents parts).components = parts :=
    Path.components_ofComponents_of_prefix (h ▸ List.prefix_append _ _)
  have hslash : '/' ∉ name.toList := (plain_of_mem_components (by rw [h]; simp)).2
  have hstaging : staging target = (Path.ofComponents parts).join ⟨stagingName name⟩ := by
    rw [staging, hname, hparent]
    rfl
  rw [hstaging, Path.components_join_names _ (components_stagingName hslash), hparts]
  rfl

/-- or there is one. -/
theorem components_staging_of_none (h : target.fileName? = none) :
    (staging target).components = target.components ++ [stagingName ""].map .name := by
  have hstaging : staging target = target.join ⟨stagingName ""⟩ := by rw [staging, h]
  rw [hstaging, Path.components_join_names _ (components_stagingName List.not_mem_nil)]

/-! ## Places of files -/

/-- **A path of names below the root leads to a place that ends in them**,
below the directory that the root leads to. -/
theorem exists_base (hp : q.components = root.components ++ names.map .name) (hne : names ≠ [])
    (hlink : disk.Linkless q) (h : disk.place q true = .ok place) :
    ∃ base, disk.Leads true 0 []
        (disk.workingDirectory.resolve root.components ++ [.current]) base ∧
      place = base ++ names := by
  have hsteps := Disk.locate_eq_ok_iff.1 (hlink true place h)
  obtain ⟨trail, htrail, htaken⟩ := Disk.exists_trail (disk.workingDirectory.join q)
  rw [Disk.stepsOf, htaken, Path.components_join, hp, Path.resolve_append_names,
    List.append_assoc] at hsteps
  exact hsteps.exists_names htrail hne

/-- **Different names below the root lead to different places.** -/
theorem names_eq_of_place {p' : Path} {names' : List String}
    (hp : p.components = root.components ++ names.map .name) (hne : names ≠ [])
    (hp' : p'.components = root.components ++ names'.map .name) (hne' : names' ≠ [])
    (hlink : disk.Linkless p) (hlink' : disk.Linkless p') (h : disk.place p true = .ok place)
    (h' : disk.place p' true = .ok place) : names = names' := by
  obtain ⟨base, hbase, hplace⟩ := exists_base hp hne hlink h
  obtain ⟨base', hbase', hplace'⟩ := exists_base hp' hne' hlink' h'
  obtain rfl := hbase.unique hbase'
  exact List.append_cancel_left (hplace.symm.trans hplace')

/-- The components of a listed file and of the place beside it. -/
theorem Listed.exists_components (h : Listed p) (root : Path) : ∃ above name,
    p.components = (above ++ [name]).map .name ∧
    (root.join p).components = root.components ++ (above ++ [name]).map .name ∧
    (staging (root.join p)).components =
      root.components ++ (above ++ [stagingName name]).map .name ∧
    ∀ other, name ≠ stagingName other := by
  obtain ⟨names, hne, hnames⟩ := h.names
  obtain ⟨above, name, rfl⟩ : ∃ above name, names = above ++ [name] :=
    ⟨names.dropLast, names.getLast hne, (List.dropLast_append_getLast hne).symm⟩
  have hjoined := Path.components_join_names root hnames
  refine ⟨above, name, hnames, hjoined, ?_, fun other hother => h.unstaged other ?_⟩
  · rw [List.map_append, ← List.append_assoc] at hjoined ⊢
    exact components_staging hjoined
  · have hlast : p.components.getLast? = some (.name name) := by
      rw [hnames, List.map_append]
      exact List.getLast?_concat
    rw [Path.fileName?, hlast, ← hother]

/-- **What is beside a file** is in its directory, at a name that is told by
its own. -/
theorem exists_beside (htop : disk.top.isDirectory) (htarget : disk.Linkless target)
    (hstaging : disk.Linkless (staging target)) (hplace : disk.place target true = .ok place)
    (hway : disk.way place = none) (hbeside : disk.place (staging target) true = .ok beside) :
    ∃ base name, place = base ++ [name] ∧ beside = base ++ [stagingName name] := by
  cases hname : target.fileName? with
  | none =>
    -- a path without a name leads to a directory
    obtain ⟨base, hbase, rfl⟩ := exists_base (components_staging_of_none hname)
      (List.cons_ne_nil _ _) hstaging hbeside
    obtain ⟨trail, htrail, htaken⟩ := Disk.exists_trail (disk.workingDirectory.join target)
    have hleads := Disk.locate_eq_ok_iff.1 (htarget true place hplace)
    rw [Disk.stepsOf, htaken, Path.components_join] at hleads
    obtain rfl : base = place := by
      rcases htrail with rfl | rfl
      · rw [List.append_nil] at hleads
        exact hbase.of_current.unique hleads
      · exact hbase.unique hleads
    obtain ⟨above, name, heq, habove⟩ := Disk.exists_above_of_place htop hbeside
      (List.concat_ne_nil _ _)
    obtain ⟨rfl, -⟩ := List.append_inj' heq rfl
    rw [hway] at habove
    cases habove
  | some name =>
    obtain ⟨parts, hparts⟩ : ∃ parts, target.components = parts ++ [.name name] := by
      refine List.getLast?_eq_some_iff.1 ?_
      rw [Path.fileName?] at hname
      split at hname <;> cases hname
      assumption
    have hwritten : (Path.ofComponents parts).components = parts :=
      Path.components_ofComponents_of_prefix (hparts ▸ List.prefix_append _ _)
    have hends : target.components = (Path.ofComponents parts).components ++ [name].map .name := by
      rw [hparts, hwritten]
      rfl
    have hends' : (staging target).components =
        (Path.ofComponents parts).components ++ [stagingName name].map .name := by
      rw [components_staging hparts, hwritten]
      rfl
    obtain ⟨base, hbase, rfl⟩ := exists_base hends (List.cons_ne_nil _ _) htarget hplace
    obtain ⟨base', hbase', rfl⟩ := exists_base hends' (List.cons_ne_nil _ _) hstaging hbeside
    obtain rfl := hbase.unique hbase'
    exact ⟨base, name, rfl, rfl⟩

/-- Two paths that do not lead to one place. -/
def Apart (disk : Disk) (p q : Path) : Prop :=
  ∀ place, disk.place p true = .ok place → disk.place q true ≠ .ok place

theorem Apart.symm (h : Apart disk p q) : Apart disk q p := fun place hq hp => h place hp hq

theorem Apart.congr (h : Apart before p q) (hsame : before.SameWay after) : Apart after p q :=
  fun place hp hq => h place (hsame.place_eq_ok_iff.1 hp) (hsame.place_eq_ok_iff.1 hq)

/-- **Files that can be written one after the other**: no link leads to
them or to the places beside them, they are at different places, and none of
them is beside another one. -/
structure Separate (disk : Disk) (root : Path) (paths : List Path) : Prop where
  linkless : ∀ p ∈ paths, disk.Linkless (root.join p) ∧ disk.Linkless (staging (root.join p))
  targets : paths.Pairwise fun p q => Apart disk (root.join p) (root.join q)
  across : ∀ p ∈ paths, ∀ q ∈ paths, Apart disk (root.join p) (staging (root.join q))

/-- **What is beside different files is at different places**, wherever there
is no directory instead of a file. -/
theorem apart_staging (htop : disk.top.isDirectory) (hp : disk.Linkless p)
    (hp' : disk.Linkless (staging p)) (hq : disk.Linkless q) (hq' : disk.Linkless (staging q))
    (hapart : Apart disk p q)
    (hfile : ∃ place, disk.place p true = .ok place ∧ disk.way place = none)
    (hfile' : ∃ place, disk.place q true = .ok place ∧ disk.way place = none) :
    Apart disk (staging p) (staging q) := by
  intro beside hbeside hbeside'
  obtain ⟨place, hplace, hway⟩ := hfile
  obtain ⟨place', hplace', hway'⟩ := hfile'
  obtain ⟨base, name, rfl, rfl⟩ := exists_beside htop hp hp' hplace hway hbeside
  obtain ⟨base', name', rfl, heq⟩ := exists_beside htop hq hq' hplace' hway' hbeside'
  obtain ⟨rfl, hlast⟩ := List.append_inj' heq rfl
  obtain rfl := stagingName_injective (List.cons.inj hlast).1
  exact hapart _ hplace hplace'

/-- **Paths as reports list them are separate.** -/
theorem separate_of_listed {paths : List Path} (hlisted : ∀ p ∈ paths, Listed p)
    (hdistinct : paths.Pairwise fun p q => p.same q = false)
    (hlinks : ∀ p ∈ paths, disk.Linkless (root.join p) ∧ disk.Linkless (staging (root.join p))) :
    Separate disk root paths := by
  have hne : ∀ (above : List String) (name : String), above ++ [name] ≠ [] :=
    fun above name => List.concat_ne_nil name above
  refine ⟨hlinks, hdistinct.imp_of_mem ?_, ?_⟩
  · intro p q hp hq hpq place hplace hplace'
    obtain ⟨above, name, hnames, htarget, -, -⟩ := (hlisted p hp).exists_components root
    obtain ⟨above', name', hnames', htarget', -, -⟩ := (hlisted q hq).exists_components root
    have heq := names_eq_of_place htarget (hne _ _) htarget' (hne _ _) (hlinks p hp).1
      (hlinks q hq).1 hplace hplace'
    rw [Path.same, hnames, hnames', heq, beq_self_eq_true] at hpq
    cases hpq
  · intro p hp q hq place hplace hplace'
    obtain ⟨above, name, -, htarget, -, hname⟩ := (hlisted p hp).exists_components root
    obtain ⟨above', name', -, -, hstaging', -⟩ := (hlisted q hq).exists_components root
    have heq := names_eq_of_place htarget (hne _ _) hstaging' (hne _ _) (hlinks p hp).1
      (hlinks q hq).2 hplace hplace'
    obtain ⟨-, hlast⟩ := List.append_inj' heq rfl
    exact hname name' (List.cons.inj hlast).1

theorem Separate.congr {paths : List Path} (h : Separate before root paths)
    (hsame : before.SameWay after) : Separate after root paths where
  linkless p hp := ⟨hsame.linkless (h.linkless p hp).1, hsame.linkless (h.linkless p hp).2⟩
  targets := h.targets.imp fun hpq => hpq.congr hsame
  across p hp q hq := (h.across p hp q hq).congr hsame

theorem Separate.sublist {paths some : List Path} (h : Separate disk root paths)
    (hsome : some.Sublist paths) : Separate disk root some where
  linkless p hp := h.linkless p (hsome.subset hp)
  targets := h.targets.sublist hsome
  across p hp q hq := h.across p (hsome.subset hp) q (hsome.subset hq)

/-! ## Names of sources -/

/-- A name that new content is written under is that of no source file. -/
theorem ofPath?_eq_none (h : p.fileName? = some (stagingName name)) :
    Language.ofPath? p = none := by
  have hstem : "." ++ name ≠ "" := by
    rw [Ne, ← String.toList_eq_nil_iff, String.toList_append]
    exact List.cons_ne_nil _ _
  have hname : stagingName name = "." ++ name ++ "." ++ "codefixer" := by
    refine String.toList_injective ?_
    rw [toList_stagingName]
    simp
  have hextension := (Path.extension?_eq_some_iff h).2 ⟨"." ++ name, hstem, by decide, hname⟩
  rw [Language.ofPath?, hextension]
  rfl

/-- **Names of a source file are listed.** -/
theorem listed_of_source (hne : names ≠ []) (hnames : p.components = names.map .name)
    (hsource : (Language.ofPath? p).isSome) : Listed p := by
  refine ⟨⟨names, hne, hnames⟩, fun name hname => ?_⟩
  rw [ofPath?_eq_none hname] at hsource
  cases hsource

end WriteBack

end Remedy
