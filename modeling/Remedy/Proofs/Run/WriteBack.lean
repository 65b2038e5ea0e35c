import Mathlib
import Remedy.Proofs.Run.Staging
/-!
# Files are old or new

Writing a changed file touches two places, that of the file and the one
beside it: if it succeeds the file is replaced
(`WriteBack.replaced_of_writeFile`), and if it fails the file is kept
(`WriteBack.kept_of_writeFile`), at whichever step it fails and however much of
the new content was written by then. All these places are apart, so a run over
the files of a report leaves each of them as it was or as it is to be, and
changes nothing else (`WriteBack.exists_whole`). A run changes nothing but
among its places (`WriteBack.within_writeFiles`), even if files beside them
have several names. Files that nothing is in the way of are written
(`WriteBack.exists_writeFiles`).
-/

namespace Remedy

namespace WriteBack

variable {before after disk : Disk} {host : Host} {root p target : Path} {content : Bytes}
  {files done rest : List (Path × Bytes)} {report : Report} {places : Set (List String)}

/-! ## One file -/

/-- **A file that was written**: it holds its new content, nothing is left
beside it, and nothing else has changed. -/
structure Replaced (before after : Disk) (target : Path) (content : Bytes) : Prop where
  sameWay : before.SameWay after
  new : ∃ place, before.place target true = .ok place ∧ after.view place = some (.file content)
  unstaged : ∀ place, before.place (staging target) true = .ok place → after.view place = none
  elsewhere : ∀ place, before.place target true ≠ .ok place →
    before.place (staging target) true ≠ .ok place → after.view place = before.view place

/-- **A file that was not written**: nothing has changed but for what may be
beside it. -/
structure Kept (before after : Disk) (target : Path) : Prop where
  sameWay : before.SameWay after
  elsewhere : ∀ place, before.place (staging target) true ≠ .ok place →
    after.view place = before.view place

/-- **How the writing of one file can end**: while its new content is written
beside it, while that is moved, or well. -/
theorem writeFile_cases (disk : Disk) (target : Path) (content : Bytes) (host : Host) :
    (∃ after fault causes, disk.write (staging target) content host = (after, .error fault) ∧
      writeFile disk target content host = (after, .error (.failed causes))) ∨
    (∃ staged fault causes, disk.write (staging target) content host = (staged, .ok ()) ∧
      staged.rename (staging target) target host = .error fault ∧
      writeFile disk target content host = (staged, .error (.failed causes))) ∨
    ∃ staged replaced, disk.write (staging target) content host = (staged, .ok ()) ∧
      staged.rename (staging target) target host = .ok replaced ∧
      writeFile disk target content host = (replaced, .ok ()) := by
  unfold writeFile
  rcases hwrite : disk.write (staging target) content host with ⟨staged, fault | ⟨⟩⟩
  · exact .inl ⟨staged, fault, _, rfl, by simp only [hwrite]; rfl⟩
  · cases hrename : staged.rename (staging target) target host with
    | error fault =>
      exact .inr (.inl ⟨staged, fault, _, rfl, hrename, by simp only [hwrite, hrename]; rfl⟩)
    | ok replaced =>
      exact .inr (.inr ⟨staged, replaced, rfl, hrename, by simp only [hwrite, hrename]⟩)

/-- What is written beside a file, all of it or the beginning. -/
theorem kept_of_write {result : Except FileFault Unit} (htop : disk.top.isDirectory)
    (hsole : disk.Sole (staging target))
    (h : disk.write (staging target) content host = (after, result)) : Kept disk after target := by
  obtain ⟨rfl, -⟩ | ⟨beside, written, hbeside, hfilled, -⟩ := Disk.write_cases htop h
  · exact ⟨.refl after, fun _ _ => rfl⟩
  · refine ⟨hfilled.sameWay, fun place hplace => ?_⟩
    refine (hfilled.sets (hsole beside hbeside)).elsewhere place ?_
    rintro rfl
    exact hplace hbeside

/-- **A file whose writing fails** is kept. -/
theorem kept_of_writeFile {e : RunError} (htop : disk.top.isDirectory)
    (hsole : disk.Sole (staging target))
    (h : writeFile disk target content host = (after, .error e)) : Kept disk after target := by
  obtain ⟨staged, fault, causes, hwrite, hend⟩ | ⟨staged, -, causes, hwrite, -, hend⟩ |
      ⟨staged, replaced, -, -, hend⟩ :=
    writeFile_cases disk target content host <;> rw [hend] at h <;>
    obtain ⟨rfl, hresult⟩ := Prod.mk.inj h
  · exact kept_of_write htop hsole hwrite
  · exact kept_of_write htop hsole hwrite
  · cases hresult

/-- **A file whose writing succeeds** is replaced. -/
theorem replaced_of_writeFile {u : Unit} (htop : disk.top.isDirectory)
    (htarget : disk.Linkless target) (hstaging : disk.Linkless (staging target))
    (hsole : disk.Sole (staging target)) (hacross : Apart disk target (staging target))
    (h : writeFile disk target content host = (after, .ok u)) :
    Replaced disk after target content := by
  obtain ⟨staged, -, causes, -, hend⟩ | ⟨staged, -, causes, -, -, hend⟩ |
      ⟨staged, replaced, hwrite, hrename, hend⟩ :=
    writeFile_cases disk target content host <;> rw [hend] at h <;>
    obtain ⟨rfl, hresult⟩ := Prod.mk.inj h
  · cases hresult
  · cases hresult
  obtain ⟨-, fault, hfault⟩ | ⟨beside, written, hbeside, hfilled, hwritten⟩ :=
    Disk.write_cases htop hwrite
  · cases hfault
  obtain rfl := hwritten () rfl
  have hsame := hfilled.sameWay
  have hstaged := hfilled.sets (hsole beside hbeside)
  have hsource : staged.place (staging target) false = .ok beside :=
    hsame.place_eq_ok_iff.2 (hstaging.place_eq hbeside false)
  obtain ⟨goal, hgoal, hne, hold, rfl⟩ :=
    Disk.exists_move_of_rename hsource hstaged.there hrename
  have hplace : disk.place target true = .ok goal :=
    htarget.place_eq (hsame.place_eq_ok_iff.1 hgoal) true
  have hapart : goal ≠ beside := by
    rintro rfl
    exact hacross goal hplace hbeside
  -- what was written has no other name, so it is not moved onto itself
  obtain ⟨⟨k, hk, -⟩, -⟩ | ⟨between, hgone, hmoved⟩ :=
    Disk.move_cases (hsame.isDirectory_top htop) hstaged.there hgoal hne hold
  · rw [hstaged.numberAt_there] at hk
    cases hk
  have hgoalWay : between.way goal = none := by
    rw [Disk.way, hgone.elsewhere goal hapart]
    exact (hsame.linkless htarget).way_eq_none (hsame.isDirectory_top htop) hgoal hold
  have hbesideWay : staged.way beside = none := by
    rw [Disk.way, hstaged.there]
    rfl
  refine ⟨hsame.trans ((hgone.sameWay hbesideWay rfl).trans (hmoved.sameWay hgoalWay rfl)),
    ⟨goal, hplace, hmoved.there⟩, fun place hstage => ?_, fun place htarget' hstage => ?_⟩
  · obtain rfl : beside = place := Except.ok.inj (hbeside.symm.trans hstage)
    rw [hmoved.elsewhere _ hapart.symm, hgone.there]
  · have hnotGoal : place ≠ goal := by
      rintro rfl
      exact htarget' hplace
    have hnotBeside : place ≠ beside := by
      rintro rfl
      exact hstage hbeside
    rw [hmoved.elsewhere place hnotGoal, hgone.elsewhere place hnotBeside,
      hstaged.elsewhere place hnotBeside]

/-- A file that was replaced stands where no directory was. -/
theorem Replaced.exists_place (h : Replaced before after target content) :
    ∃ place, before.place target true = .ok place ∧ before.way place = none := by
  obtain ⟨place, hplace, hnew⟩ := h.new
  refine ⟨place, hplace, ?_⟩
  rw [← h.sameWay.way, Disk.way, hnew]
  rfl

/-- What is beside another file has no more names than before. -/
theorem Replaced.sole (h : Replaced before after target content) (hp : before.Sole (staging p))
    (hacross : Apart before target (staging p)) : after.Sole (staging p) := by
  intro place hplace
  have hbefore := h.sameWay.place_eq_ok_iff.1 hplace
  by_cases hsame : before.place (staging target) true = .ok place
  · rw [Disk.numberAt, h.unstaged place hsame]
    rfl
  · rw [Disk.numberAt, h.elsewhere place (fun htarget => hacross place htarget hbefore) hsame]
    exact hp place hbefore

/-- **A file can be written**: nothing is in the way at its place and at the
place beside it. -/
def Writable (disk : Disk) (target : Path) : Prop :=
  (∃ place, disk.target target true = .ok place) ∧
    ∃ beside, disk.target (staging target) true = .ok beside

theorem Writable.congr (h : Writable before target) (hsame : before.SameWay after) :
    Writable after target :=
  ⟨h.1.imp fun _ => hsame.target_eq_ok_iff.2, h.2.imp fun _ => hsame.target_eq_ok_iff.2⟩

/-- **A file that can be written is written**, if the host does all that it
takes. -/
theorem writeFile_eq {place beside : List String} (htop : disk.top.isDirectory)
    (htarget : disk.Linkless target) (hstaging : disk.Linkless (staging target))
    (hplace : disk.target target true = .ok place)
    (hbeside : disk.target (staging target) true = .ok beside)
    (hwrite : host.refusal? disk (.write beside) = none)
    (hbreach : host.breach? disk beside content = none)
    (hrename : host.refusal? (disk.fill beside content) (.rename beside place) = none) :
    writeFile disk target content host =
      ((disk.fill beside content).move beside place (.file content (disk.numberAt beside)),
        .ok ()) := by
  obtain ⟨hnext, hne, hold⟩ := Disk.target_eq_ok_iff.1 hbeside
  have hfilled := Disk.filled_fill htop hnext hne hold content
  have hgoal : (disk.fill beside content).target target false = .ok place := by
    obtain ⟨hthere, hdown, hold⟩ := Disk.target_eq_ok_iff.1 hplace
    exact hfilled.sameWay.target_eq_ok_iff.2
      (Disk.target_eq_ok_iff.2 ⟨htarget.place_eq hthere false, hdown, hold⟩)
  have hsource := hfilled.sameWay.place_eq_ok_iff.2 (hstaging.place_eq hnext false)
  unfold writeFile
  simp only [Disk.write_eq hbeside hwrite, Host.fill, hbreach,
    Disk.rename_eq hsource hfilled.there hgoal hrename]

/-- **The writing of a file** changes nothing but among its two places,
however it ends. -/
theorem within_writeFile (htop : disk.top.isDirectory) (htarget : disk.Linkless target)
    (hstaging : disk.Linkless (staging target)) (hclosed : disk.Closed places)
    (hplaces : ∀ p ∈ [target, staging target], ∀ place, disk.place p true = .ok place →
      place ∈ places) (content : Bytes) (host : Host) :
    disk.Within (writeFile disk target content host).1 places := by
  rw [List.forall_mem_cons, List.forall_mem_singleton] at hplaces
  have hwrite : ∀ staged result, disk.write (staging target) content host = (staged, result) →
      disk.Within staged places := by
    intro staged result hwrite
    obtain ⟨rfl, -⟩ | ⟨beside, written, hbeside, hfilled, -⟩ := Disk.write_cases htop hwrite
    · exact .refl hclosed
    · exact hfilled.within hclosed (hplaces.2 beside hbeside)
  obtain ⟨staged, fault, causes, hstaged, hend⟩ | ⟨staged, fault, causes, hstaged, -, hend⟩ |
      ⟨staged, replaced, hstaged, hrename, hend⟩ :=
    writeFile_cases disk target content host <;> rw [hend]
  · exact hwrite staged _ hstaged
  · exact hwrite staged _ hstaged
  have hwithin := hwrite staged _ hstaged
  obtain ⟨-, fault, hfault⟩ | ⟨beside, written, hbeside, hfilled, -⟩ :=
    Disk.write_cases htop hstaged
  · cases hfault
  have hsame := hfilled.sameWay
  obtain ⟨goal, hgoal, hne, hold, rfl⟩ := Disk.exists_move_of_rename
    (hsame.place_eq_ok_iff.2 (hstaging.place_eq hbeside false)) hfilled.there hrename
  have hplace := htarget.place_eq (hsame.place_eq_ok_iff.1 hgoal) true
  have hway := (hsame.linkless htarget).way_eq_none (hsame.isDirectory_top htop) hgoal hold
  exact hwithin.trans (Disk.within_move (hsame.isDirectory_top htop) hwithin.closed hfilled.there
    hgoal hne hway (hplaces.2 beside hbeside) (hplaces.1 goal hplace))

/-! ## All files -/

/-- **A part of the files was written**: these hold their new content and
have nothing beside them, and nothing else has changed but for what may be
beside the next one. -/
structure Wrote (before after : Disk) (root : Path) (done rest : List (Path × Bytes)) : Prop where
  sameWay : before.SameWay after
  new : ∀ w ∈ done, ∃ place, before.place (root.join w.1) true = .ok place ∧
    after.view place = some (.file w.2)
  unstaged : ∀ w ∈ done, ∀ place, before.place (staging (root.join w.1)) true = .ok place →
    (∀ u ∈ rest.take 1, before.place (staging (root.join u.1)) true ≠ .ok place) →
      after.view place = none
  elsewhere : ∀ place, (∀ w ∈ done, before.place (root.join w.1) true ≠ .ok place) →
    (∀ w ∈ done ++ rest.take 1, before.place (staging (root.join w.1)) true ≠ .ok place) →
    after.view place = before.view place

/-- A file that was written stands where no directory was. -/
theorem Wrote.exists_place (h : Wrote before after root done rest) {w : Path × Bytes}
    (hw : w ∈ done) :
    ∃ place, before.place (root.join w.1) true = .ok place ∧ before.way place = none := by
  obtain ⟨place, hplace, hnew⟩ := h.new w hw
  refine ⟨place, hplace, ?_⟩
  rw [← h.sameWay.way, Disk.way, hnew]
  rfl

/-- One more file ahead of those that were written. -/
theorem Wrote.cons {between : Disk} {w : Path × Bytes} (htop : before.top.isDirectory)
    (hseparate : Separate before root (w.1 :: files.map Prod.fst)) (hfiles : files = done ++ rest)
    (hw : Replaced before between (root.join w.1) w.2) (h : Wrote between after root done rest) :
    Wrote before after root (w :: done) rest := by
  have hdone : ∀ u ∈ done, u.1 ∈ files.map Prod.fst := fun u hu =>
    List.mem_map_of_mem (hfiles ▸ List.mem_append_left rest hu)
  have htake : ∀ u ∈ done ++ rest.take 1, u.1 ∈ files.map Prod.fst := by
    intro u hu
    refine List.mem_map_of_mem (hfiles ▸ ?_)
    exact (List.mem_append.1 hu).elim (List.mem_append_left rest)
      fun hmem => List.mem_append_right done (List.mem_of_mem_take hmem)
  have hplace : ∀ p place, between.place p true = .ok place ↔ before.place p true = .ok place :=
    fun _ _ => hw.sameWay.place_eq_ok_iff
  obtain ⟨htargets, -⟩ := List.pairwise_cons.1 hseparate.targets
  have hself : ∀ q ∈ files.map Prod.fst, q ∈ w.1 :: files.map Prod.fst :=
    fun q hq => List.mem_cons_of_mem _ hq
  have hacross := hseparate.across
  refine ⟨hw.sameWay.trans h.sameWay, ?_, ?_, ?_⟩
  · refine List.forall_mem_cons.2 ⟨?_, fun u hu => ?_⟩
    · obtain ⟨place, hthere, hnew⟩ := hw.new
      refine ⟨place, hthere, ?_⟩
      rw [h.elsewhere place, hnew]
      · intro u hu hsame
        exact htargets u.1 (hdone u hu) place hthere ((hplace _ _).1 hsame)
      · intro u hu hsame
        exact hacross w.1 List.mem_cons_self u.1 (hself _ (htake u hu)) place hthere
          ((hplace _ _).1 hsame)
    · obtain ⟨place, hthere, hnew⟩ := h.new u hu
      exact ⟨place, (hplace _ _).1 hthere, hnew⟩
  · refine List.forall_mem_cons.2 ⟨fun place hthere hnext => ?_, fun u hu place hthere hnext => ?_⟩
    · rw [h.elsewhere place, hw.unstaged place hthere]
      · intro u hu hsame
        exact hacross u.1 (hself _ (hdone u hu)) w.1 List.mem_cons_self place
          ((hplace _ _).1 hsame) hthere
      · intro u hu hsame
        rw [hplace] at hsame
        rcases List.mem_append.1 hu with hu | hu
        · obtain ⟨there, hu', huWay⟩ := h.exists_place hu
          have hlinkless := hseparate.linkless w.1 List.mem_cons_self
          have hlinkless' := hseparate.linkless u.1 (hself _ (hdone u hu))
          exact apart_staging htop hlinkless.1 hlinkless.2 hlinkless'.1 hlinkless'.2
            (htargets u.1 (hdone u hu)) hw.exists_place
            ⟨there, (hplace _ _).1 hu', (hw.sameWay.way there).symm.trans huWay⟩ place hthere hsame
        · exact hnext u hu hsame
    · exact h.unstaged u hu place ((hplace _ _).2 hthere)
        fun v hv hsame => hnext v hv ((hplace _ _).1 hsame)
  · intro place htarget hstaging
    rw [List.forall_mem_cons] at htarget
    rw [List.cons_append, List.forall_mem_cons] at hstaging
    rw [h.elsewhere place, hw.elsewhere place htarget.1 hstaging.1]
    · exact fun u hu hsame => htarget.2 u hu ((hplace _ _).1 hsame)
    · exact fun u hu hsame => hstaging.2 u hu ((hplace _ _).1 hsame)

section Unfolding

-- the search for a place is not to be run when the writing of files is unfolded
attribute [local irreducible] writeFile

theorem writeFiles_nil (disk : Disk) (root : Path) (count : Nat) (host : Host) :
    writeFiles disk root [] count host = (disk, .ok count) := rfl

theorem writeFiles_cons (disk : Disk) (root p : Path) (content : Bytes)
    (files : List (Path × Bytes)) (count : Nat) (host : Host) :
    writeFiles disk root ((p, content) :: files) count host =
      match writeFile disk (root.join p) content host with
      | (disk, .ok ()) => writeFiles disk root files (count + 1) host
      | (disk, .error e) => (disk, .error e) := rfl

end Unfolding

/-- Behind a file that was written come the other ones. -/
theorem writeFiles_of_ok {between : Disk} (h : writeFile disk (root.join p) content host =
    (between, .ok ())) (files : List (Path × Bytes)) (count : Nat) :
    writeFiles disk root ((p, content) :: files) count host =
      writeFiles between root files (count + 1) host := by
  rw [writeFiles_cons, h]

/-- **Where writing fails**, a step of it has failed. -/
theorem exists_causes {e : RunError} {root : Path} {count : Nat}
    (h : writeFiles disk root files count host = (after, .error e)) :
    ∃ causes, e = .failed causes := by
  induction files generalizing disk count with
  | nil =>
    rw [writeFiles_nil] at h
    cases h
  | cons w files ih =>
    obtain ⟨p, content⟩ := w
    rw [writeFiles_cons] at h
    obtain ⟨staged, -, causes, -, hend⟩ | ⟨staged, -, causes, -, -, hend⟩ |
        ⟨-, replaced, -, -, hend⟩ :=
      writeFile_cases disk (root.join p) content host <;> rw [hend] at h
    · exact ⟨causes, (Except.error.inj (Prod.mk.inj h).2).symm⟩
    · exact ⟨causes, (Except.error.inj (Prod.mk.inj h).2).symm⟩
    · exact ih h

/-- **A run over all files** writes those of a first part of them, which is
all of them if none of them fails. -/
theorem exists_wrote {result : Except RunError Nat} (htop : disk.top.isDirectory)
    (hseparate : Separate disk root (files.map Prod.fst))
    (hsole : ∀ p ∈ files.map Prod.fst, disk.Sole (staging (root.join p))) (count : Nat)
    (h : writeFiles disk root files count host = (after, result)) :
    ∃ done rest, files = done ++ rest ∧ Wrote disk after root done rest ∧
      match result with
      | .ok n => rest = [] ∧ n = count + files.length
      | .error _ => rest ≠ [] := by
  -- each file starts from the disk that the one ahead of it has left, where paths lead as before
  induction files generalizing disk count with
  | nil =>
    rw [writeFiles_nil] at h
    obtain ⟨rfl, rfl⟩ := Prod.mk.inj h
    exact ⟨[], [], rfl, ⟨.refl disk, nofun, nofun, fun _ _ _ => rfl⟩, rfl, rfl⟩
  | cons w files ih =>
    obtain ⟨p, content⟩ := w
    rw [List.map_cons] at hseparate hsole
    obtain ⟨htarget, hstaging⟩ := hseparate.linkless p List.mem_cons_self
    have hsole' := hsole p List.mem_cons_self
    rw [writeFiles_cons] at h
    rcases hwrite : writeFile disk (root.join p) content host with ⟨between, e | u⟩
    · rw [hwrite] at h
      obtain ⟨rfl, rfl⟩ := Prod.mk.inj h
      have hkept := kept_of_writeFile htop hsole' hwrite
      refine ⟨[], (p, content) :: files, rfl, ⟨hkept.sameWay, nofun, nofun, ?_⟩,
        List.cons_ne_nil _ _⟩
      intro place _ hbeside
      exact hkept.elsewhere place (hbeside (p, content) List.mem_cons_self)
    · rw [hwrite] at h
      have hreplaced := replaced_of_writeFile htop htarget hstaging hsole'
        (hseparate.across p List.mem_cons_self p List.mem_cons_self) hwrite
      obtain ⟨done, rest, hfiles, hwrote, hresult⟩ :=
        ih (hreplaced.sameWay.isDirectory_top htop)
          ((hseparate.sublist (List.sublist_cons_self _ _)).congr hreplaced.sameWay)
          (fun q hq => hreplaced.sole (hsole q (List.mem_cons_of_mem p hq))
            (hseparate.across p List.mem_cons_self q (List.mem_cons_of_mem p hq))) (count + 1) h
      refine ⟨(p, content) :: done, rest, by rw [hfiles, List.cons_append],
        hwrote.cons htop hseparate hfiles hreplaced, ?_⟩
      cases result with
      | error => exact hresult
      | ok n =>
        obtain ⟨hnone, hcount⟩ := hresult
        exact ⟨hnone, by rw [hcount, List.length_cons]; omega⟩

/-- **Files that can all be written are written**, if the host is willing. -/
theorem exists_writeFiles (htop : disk.top.isDirectory)
    (hlinkless : ∀ w ∈ files,
      disk.Linkless (root.join w.1) ∧ disk.Linkless (staging (root.join w.1)))
    (hfree : ∀ w ∈ files, Writable disk (root.join w.1)) (count : Nat) :
    ∃ after n, writeFiles disk root files count = (after, .ok n) := by
  induction files generalizing disk count with
  | nil => exact ⟨disk, count, writeFiles_nil disk root count .willing⟩
  | cons w files ih =>
    obtain ⟨p, content⟩ := w
    rw [List.forall_mem_cons] at hlinkless hfree
    obtain ⟨⟨htarget, hstaging⟩, hlinkless⟩ := hlinkless
    obtain ⟨⟨⟨place, hplace⟩, beside, hbeside⟩, hfree⟩ := hfree
    have hwrite : writeFile disk (root.join p) content = _ :=
      writeFile_eq htop htarget hstaging hplace hbeside rfl rfl rfl
    have hsame := (within_writeFile htop htarget hstaging (Disk.closed_univ disk)
      (fun _ _ _ _ => Set.mem_univ _) content .willing).sameWay
    rw [hwrite] at hsame
    rw [writeFiles_cons, hwrite]
    exact ih (hsame.isDirectory_top htop)
      (fun u hu => (hlinkless u hu).imp hsame.linkless hsame.linkless)
      (fun u hu => (hfree u hu).congr hsame) (count + 1)

/-- **A run over all files** changes nothing but among their places and those
beside them, however it ends. -/
theorem within_writeFiles (htop : disk.top.isDirectory) (hclosed : disk.Closed places)
    (hlinkless : ∀ w ∈ files,
      disk.Linkless (root.join w.1) ∧ disk.Linkless (staging (root.join w.1)))
    (hplaces : ∀ w ∈ files, ∀ p ∈ [root.join w.1, staging (root.join w.1)],
      ∀ place, disk.place p true = .ok place → place ∈ places) (count : Nat) (host : Host) :
    disk.Within (writeFiles disk root files count host).1 places := by
  induction files generalizing disk count with
  | nil =>
    rw [writeFiles_nil]
    exact .refl hclosed
  | cons w files ih =>
    obtain ⟨p, content⟩ := w
    rw [List.forall_mem_cons] at hlinkless hplaces
    have hwithin : disk.Within (writeFile disk (root.join p) content host).1 places :=
      within_writeFile htop hlinkless.1.1 hlinkless.1.2 hclosed hplaces.1 content host
    rw [writeFiles_cons]
    generalize writeFile disk (root.join p) content host = ended at hwithin ⊢
    obtain ⟨between, e | ⟨⟩⟩ := ended
    · exact hwithin
    · have hsame := hwithin.sameWay
      refine hwithin.trans (ih (hsame.isDirectory_top htop) hwithin.closed
        (fun u hu => (hlinkless.2 u hu).imp hsame.linkless hsame.linkless) ?_ (count + 1))
      exact fun u hu q hq place hplace =>
        hplaces.2 u hu q hq place (hsame.place_eq_ok_iff.1 hplace)

/-- **A file that was not written can be read as before.** -/
theorem Wrote.read_eq {paths : List Path} (hseparate : Separate before root paths)
    (hpaths : ∀ w ∈ done ++ rest, w.1 ∈ paths) (h : Wrote before after root done rest)
    (hp : p ∈ paths) (hnot : p ∉ done.map Prod.fst) :
    (after.read (root.join p)).toOption = (before.read (root.join p)).toOption := by
  refine h.sameWay.read_eq fun place hplace => ?_
  refine h.elsewhere place (fun w hw hsame => ?_) fun w hw hsame => ?_
  · have hne : w.1 ≠ p := fun heq => hnot (heq ▸ List.mem_map_of_mem hw)
    have : Std.Symm fun p q => Apart before (root.join p) (root.join q) :=
      ⟨fun _ _ => Apart.symm⟩
    exact hseparate.targets.forall (hpaths w (List.mem_append_left rest hw)) hp hne place hsame
      hplace
  · refine hseparate.across p hp w.1 (hpaths w ?_) place hplace hsame
    exact (List.mem_append.1 hw).elim (List.mem_append_left rest)
      fun hmem => List.mem_append_right done (List.mem_of_mem_take hmem)

/-! ## The files of a report -/

/-- The changed files of a report and what is to be written to them. -/
def pending (report : Report) : List (Path × Bytes) :=
  report.changedFiles.filterMap fun f => f.encoded.map (f.path, ·)

theorem ofReport_eq (disk : Disk) (report : Report) (host : Host) :
    ofReport disk report host = writeFiles disk report.run.root (pending report) 0 host := rfl

/-- The paths that are to be written are those of changed files with new
content. -/
theorem map_fst_pending (report : Report) : (pending report).map Prod.fst =
    (report.changedFiles.filter fun f => f.encoded.isSome).map FileResult.path := by
  rw [pending, List.map_filterMap, ← List.filterMap_eq_map, ← List.filterMap_eq_filter,
    List.filterMap_filterMap]
  refine List.filterMap_congr fun f _ => ?_
  cases hencoded : f.encoded <;> simp [Option.guard, hencoded]

/-- **The files of a report are whole**: those of a first part hold their new
content, and nothing is left beside them but what may be beside the next one.
All others hold what they held. Nothing else has changed, and what a path reads
is as before unless it leads to one of these places. -/
structure Whole (before after : Disk) (report : Report) (done rest : List (Path × Bytes)) :
    Prop where
  split : pending report = done ++ rest
  new : ∀ w ∈ done, after.read (report.run.root.join w.1) = .ok w.2
  unstaged : ∀ w ∈ done, ∀ place,
    before.place (staging (report.run.root.join w.1)) true = .ok place →
    (∀ u ∈ rest.take 1, before.place (staging (report.run.root.join u.1)) true ≠ .ok place) →
      after.view place = none
  old : ∀ f ∈ report.changedFiles, f.path ∉ done.map Prod.fst →
    (after.read (report.run.root.join f.path)).toOption =
      (before.read (report.run.root.join f.path)).toOption
  elsewhere : ∀ place,
    (∀ w ∈ done, before.place (report.run.root.join w.1) true ≠ .ok place) →
    (∀ w ∈ done ++ rest.take 1,
      before.place (staging (report.run.root.join w.1)) true ≠ .ok place) →
    after.view place = before.view place
  reads : ∀ p, (∀ w ∈ done, Apart before p (report.run.root.join w.1)) →
    (∀ w ∈ done ++ rest.take 1, Apart before p (staging (report.run.root.join w.1))) →
    (after.read p).toOption = (before.read p).toOption

/-- What can be said of the changed files of a report that has listed,
distinct paths. -/
theorem separate_changedFiles (hlisted : ∀ f ∈ report.changedFiles, Listed f.path)
    (hdistinct : report.changedFiles.Pairwise fun f g => f.path.same g.path = false)
    (hlinks : ∀ f ∈ report.changedFiles, disk.Linkless (report.run.root.join f.path) ∧
      disk.Linkless (staging (report.run.root.join f.path))) :
    Separate disk report.run.root (report.changedFiles.map FileResult.path) :=
  separate_of_listed (List.forall_mem_map.2 hlisted) (List.pairwise_map.2 hdistinct)
    (List.forall_mem_map.2 hlinks)

theorem pending_sublist (report : Report) :
    ((pending report).map Prod.fst).Sublist (report.changedFiles.map FileResult.path) := by
  rw [map_fst_pending]
  exact List.filter_sublist.map _

/-- **Writing a report back** writes the files of a first part, which is all
of them if none fails. -/
theorem exists_whole {result : Except RunError Nat} (htop : disk.top.isDirectory)
    (hseparate : Separate disk report.run.root (report.changedFiles.map FileResult.path))
    (hsole : ∀ f ∈ report.changedFiles, disk.Sole (staging (report.run.root.join f.path)))
    (h : ofReport disk report host = (after, result)) :
    ∃ done rest, Whole disk after report done rest ∧
      match result with
      | .ok n => rest = [] ∧ n = (pending report).length
      | .error _ => rest ≠ [] := by
  rw [ofReport_eq] at h
  have hsole' : ∀ p ∈ (pending report).map Prod.fst,
      disk.Sole (staging (report.run.root.join p)) := by
    intro p hp
    obtain ⟨f, hf, rfl⟩ := List.mem_map.1 ((pending_sublist report).subset hp)
    exact hsole f hf
  obtain ⟨done, rest, hsplit, hwrote, hresult⟩ :=
    exists_wrote htop (hseparate.sublist (pending_sublist report)) hsole' 0 h
  have hpaths : ∀ w ∈ done ++ rest, w.1 ∈ report.changedFiles.map FileResult.path :=
    fun w hw => (pending_sublist report).subset (List.mem_map_of_mem (hsplit ▸ hw))
  refine ⟨done, rest, ⟨hsplit, fun w hw => ?_, hwrote.unstaged, fun f hf hnot => ?_,
    hwrote.elsewhere, fun p htargets hstagings => ?_⟩, ?_⟩
  · obtain ⟨place, hplace, hnew⟩ := hwrote.new w hw
    exact Disk.read_eq_ok_iff.2 ⟨place, none, hwrote.sameWay.place_eq_ok_iff.2 hplace, hnew⟩
  · exact hwrote.read_eq hseparate hpaths (List.mem_map_of_mem hf) hnot
  · exact hwrote.sameWay.read_eq fun place hplace => hwrote.elsewhere place
      (fun w hw => htargets w hw place hplace) fun w hw => hstagings w hw place hplace
  · cases result with
    | ok n => exact ⟨hresult.1, by rw [hresult.2, Nat.zero_add]⟩
    | error e => exact hresult

end WriteBack

end Remedy
