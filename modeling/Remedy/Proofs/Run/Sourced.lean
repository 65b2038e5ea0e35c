import Mathlib
import Remedy.Proofs.Failing
import Remedy.Proofs.Files.Discovered
import Remedy.Proofs.Run.WriteBack
import Remedy.Proofs.Run.Visibility
/-!
# The files that a report lists

A run looks at the sources that its project has on the disk and lists no
other files, and none of them twice (`exists_sourced_of_runProject`). No link
leads to any of them, and where none stands beside them either they can be
written one after the other (`Report.Sourced.separate`).
-/

namespace Remedy

variable {disk : Disk} {path q target : Path} {names place : List String} {name : String}
  {report : Report} {f : FileResult}

/-! ## From the disk to the report -/

/-- **The place of a project**, and the tree below it. -/
theorem Project.exists_place {project : Project} (htidy : disk.top.Tidy)
    (h : ofPath disk path = .ok project) : ∃ place,
      project.root.components = .root :: place.map .name ∧
      disk.top.at? place = some project.node ∧ project.node.Tidy := by
  rw [ofPath] at h
  rcases hfind : disk.find path with fault | ⟨place, node⟩
  · rw [hfind] at h
    cases h
  obtain ⟨there, -, hnode⟩ := exists_of_bind_eq_ok hfind
  have hat : disk.top.at? place = some node := by
    split at hnode <;> cases hnode
    assumption
  obtain ⟨hplain, hbelow⟩ := htidy.of_at? hat
  rw [hfind] at h
  dsimp only at h
  split at h <;> cases h
  exact ⟨place, Path.components_ofPlace hplain, hat, hbelow⟩

namespace Project

theorem path_unit? {raw : RawSource} {u : SourceUnit} {readers : Readers}
    (h : unit? raw readers = some u) : u.path = raw.path := by
  obtain ⟨language, -, rfl⟩ := Option.map_eq_some_iff.1 h
  cases raw.content with
  | error => rfl
  | ok bytes =>
    dsimp only
    rw [SourceUnit.ofBytes]
    split <;> rfl

/-- Each unit is that of a source. -/
theorem map_path_units_sublist (sources : List RawSource) (readers : Readers) :
    ((units sources readers).map SourceUnit.path).Sublist (sources.map RawSource.path) := by
  induction sources with
  | nil => exact .slnil
  | cons raw sources ih =>
    rw [units, List.filterMap_cons, List.map_cons]
    cases hunit : unit? raw readers with
    | none => exact ih.cons _
    | some u =>
      rw [List.map_cons, path_unit? hunit]
      exact ih.cons_cons _

theorem map_path_readSources (disk : Disk) (root : Path) (limit : Nat) (paths : List Path) :
    (readSources disk root limit paths).map RawSource.path = paths := by
  rw [readSources, List.map_map]
  exact List.map_id paths

end Project

/-- **Each file that a report lists** is that of a unit. -/
theorem Workload.subperm_files (w : Workload) (cancellation : Cancellation) (info : RunInfo)
    (errors : List MalformedReport) :
    ((w.report (w.transform cancellation) info errors).files.map FileResult.path).Subperm
      (w.units.map SourceUnit.path) := by
  have hresults : (w.transform cancellation).results.map FileResult.path =
      (w.going cancellation).map SourceUnit.path := by
    rw [results_transform, List.map_map]
    exact List.map_congr_left fun u _ => path_resultOf _ u
  rw [report, Report.aggregate]
  refine ((List.mergeSort_perm _ _).map _).subperm.trans ?_
  refine (List.filter_sublist.map _).subperm.trans ?_
  rw [hresults]
  exact (List.filter_sublist.map _).subperm

section

variable {root : Path} {reports : List Path} {selection : Selection} {catalog : Catalog}
variable {settings : RunSettings} {clock : RunClock} {cancellation : Cancellation}
variable {readers : Readers} {told : List RunEvent}

/-- **A run lists files that it found in its project.** -/
theorem exists_project_of_runProject
    (h : runProject disk root reports selection catalog settings clock cancellation readers =
      .ok (report, told)) :
    ∃ project filter, Project.ofPath disk root = .ok project ∧ report.run.root = project.root ∧
      (report.files.map FileResult.path).Subperm (project.discover filter) := by
  obtain ⟨project, hproject, h⟩ := exists_of_bind_eq_ok h
  obtain ⟨active, -, h⟩ := exists_of_bind_eq_ok h
  obtain ⟨filter, -, h⟩ := exists_of_bind_eq_ok h
  obtain ⟨rfl, -⟩ := Prod.mk.inj (Except.ok.inj h)
  have hunits := Project.map_path_units_sublist
    (Project.readSources disk project.root settings.maxFileBytes (project.discover filter)) readers
  rw [Project.map_path_readSources] at hunits
  exact ⟨project, filter, hproject, rfl, (Workload.subperm_files _ _ _ _).trans hunits.subperm⟩

/-- **The files of a report are sources on the disk**: regular files of a
known language below the place of the project, each listed once. -/
structure Report.Sourced (disk : Disk) (report : Report) (place : List String) : Prop where
  root : report.run.root.components = .root :: place.map .name
  file : ∀ f ∈ report.files, ∃ names content number, names ≠ [] ∧
    f.path.components = names.map .name ∧ disk.view (place ++ names) = some (.file content number)
  known : ∀ f ∈ report.files, (Language.ofPath? f.path).isSome
  distinct : report.files.Pairwise fun f g => f.path.same g.path = false

/-- **A run reports on sources.** -/
theorem exists_sourced_of_runProject (htidy : disk.top.Tidy)
    (h : runProject disk root reports selection catalog settings clock cancellation readers =
      .ok (report, told)) : ∃ place, report.Sourced disk place := by
  obtain ⟨project, filter, hproject, hroot, hfiles⟩ := exists_project_of_runProject h
  obtain ⟨place, hplace, hat, hbelow⟩ := Project.exists_place htidy hproject
  have hfound : ∀ f ∈ report.files, f.path ∈ Sources.below project.node := fun f hf =>
    List.mem_of_mem_filter (hfiles.subset (List.mem_map_of_mem hf))
  refine ⟨place, hroot ▸ hplace, fun f hf => ?_, fun f hf => ?_, ?_⟩
  · obtain ⟨names, content, number, hne, hnames, hfile, -⟩ :=
      Sources.exists_of_mem_below hbelow (hfound f hf)
    refine ⟨names, content, number, hne, hnames, ?_⟩
    rw [Disk.view, FileNode.at?_append, hat, Option.bind_some, hfile]
    rfl
  · obtain ⟨-, -, -, -, -, -, hknown⟩ := Sources.exists_of_mem_below hbelow (hfound f hf)
    exact hknown
  · obtain ⟨paths, hperm, hsublist⟩ := hfiles
    have hpaths : paths.Pairwise fun p q => p.same q = false :=
      ((Sources.pairwise_below hbelow).filter _).sublist hsublist
    rw [hperm.pairwise_iff Path.same_eq_false_symm] at hpaths
    exact List.pairwise_map.1 hpaths

end

/-! ## From the report to the disk -/

namespace Disk

/-- Names from the root lead from the top. -/
theorem exists_stepsOf_names (disk : Disk) (hq : q.components = .root :: names.map .name) :
    ∃ trail, Trailing trail ∧ disk.stepsOf q = .root :: (names.map .name ++ trail) := by
  obtain ⟨trail, htrail, hsteps⟩ := exists_trail (disk.workingDirectory.join q)
  refine ⟨trail, htrail, ?_⟩
  rw [stepsOf, hsteps, Path.components_join, hq, Path.resolve, if_pos (.inl rfl), List.cons_append]

/-- No link is on a path of names where none stands. -/
theorem linkless_of_names (hq : q.components = .root :: names.map .name)
    (hway : ∀ part, part <+: names → ∀ target, disk.way part ≠ some (.link target)) :
    disk.Linkless q := by
  intro followLast place hplace
  obtain ⟨trail, htrail, hsteps⟩ := disk.exists_stepsOf_names hq
  have h := (place_eq_ok_iff.1 hplace).2
  rw [hsteps] at h ⊢
  cases h with
  | root h => exact locate_eq_ok_iff.2 (.root (h.of_names htrail hway))

end Disk

namespace WriteBack

/-- How the path of new content ends. -/
theorem exists_text_staging (target : Path) :
    ∃ ahead, (staging target).text.toList = ahead ++ ['r'] := by
  have hends : ∀ (base : Path) (name : String),
      ∃ ahead, (base.join ⟨stagingName name⟩).text.toList = ahead ++ ['r'] := by
    intro base name
    obtain ⟨ahead, hahead⟩ := Path.exists_text_join base ⟨stagingName name⟩
    refine ⟨ahead ++ '.' :: (name.toList ++ ".codefixe".toList), ?_⟩
    rw [toList_stagingName] at hahead
    rw [List.append_assoc, List.cons_append, List.append_assoc]
    exact hahead
  rw [staging]
  split <;> exact hends _ _

/-- So it does not end like a directory. -/
theorem stepsOf_staging (disk : Disk) (target : Path) : disk.stepsOf (staging target) =
    (disk.workingDirectory.join (staging target)).components := by
  obtain ⟨ahead, hahead⟩ := Path.exists_text_join disk.workingDirectory (staging target)
  obtain ⟨between, hbetween⟩ := exists_text_staging target
  rw [Disk.stepsOf, Path.steps, hahead, hbetween, ← List.append_assoc, List.reverse_append]
  rfl

end WriteBack

namespace Report.Sourced

open WriteBack

/-- No link leads to a file of the report. -/
theorem linkless (h : report.Sourced disk place) (hf : f ∈ report.files) :
    disk.Linkless (report.run.root.join f.path) := by
  obtain ⟨names, content, number, -, hnames, hfile⟩ := h.file f hf
  have hjoined := Path.components_join_names report.run.root hnames
  rw [h.root, List.cons_append, ← List.map_append] at hjoined
  exact Disk.linkless_of_names hjoined fun part hpart => Disk.way_ne_link_above hfile hpart

/-- Its files are listed as files to be written have to be. -/
theorem listed (h : report.Sourced disk place) (hf : f ∈ report.files) : Listed f.path := by
  obtain ⟨names, -, -, hne, hnames, -⟩ := h.file f hf
  exact listed_of_source hne hnames (h.known f hf)

/-- **No link leads beside a file of the report** where none stands. -/
theorem linkless_staging (h : report.Sourced disk place) (hf : f ∈ report.files)
    (hfree : disk.Unlinked (staging (report.run.root.join f.path))) :
    disk.Linkless (staging (report.run.root.join f.path)) := by
  obtain ⟨names, content, number, -, hnames, hfile⟩ := h.file f hf
  obtain ⟨above, name, hlisted, -, hbeside, -⟩ :=
    (h.listed hf).exists_components report.run.root
  obtain rfl : names = above ++ [name] :=
    List.map_injective_iff.2 (fun _ _ => PathComponent.name.inj) (hnames.symm.trans hlisted)
  rw [h.root, List.cons_append, ← List.map_append, ← List.append_assoc] at hbeside
  rw [← List.append_assoc] at hfile
  have habove : place ++ above <+: place ++ above ++ [name] := List.prefix_append _ _
  refine Disk.linkless_of_names hbeside fun part hpart target hlink => ?_
  rcases List.prefix_concat_iff.1 hpart with rfl | hpart
  · -- a link beside the file would be where the path leads
    have hleads : disk.Leads false Disk.linkLimit []
        (disk.stepsOf (staging (report.run.root.join f.path)))
        (place ++ above ++ [stagingName name]) := by
      rw [stepsOf_staging, Path.components_join, hbeside, Path.resolve, if_pos (.inl rfl)]
      refine .root (@Disk.leads_link disk _ [] _ _ _ (fun part hpart => ?_) hlink)
      refine Disk.way_above (Option.isSome_of_eq_some hfile) (hpart.trans habove) ?_
      rintro rfl
      have hlength := hpart.length_le
      simp at hlength
    refine hfree _ target (Disk.place_eq_ok_iff.2 ⟨?_, hleads⟩) ?_
    · intro hempty
      obtain ⟨ahead, hahead⟩ := exists_text_staging (report.run.root.join f.path)
      rw [hempty] at hahead
      exact List.concat_ne_nil 'r' ahead hahead.symm
    · rw [Disk.view, Disk.way_eq_link_iff.1 hlink]
      rfl
  · exact Disk.way_ne_link_above hfile (hpart.trans habove) target hlink

/-- **The changed files of a report can be written one after the other.** -/
theorem separate (h : report.Sourced disk place)
    (hfree : ∀ f ∈ report.changedFiles, disk.Unlinked (staging (report.run.root.join f.path))) :
    Separate disk report.run.root (report.changedFiles.map FileResult.path) := by
  have hmem : ∀ f ∈ report.changedFiles, f ∈ report.files := fun f => List.mem_of_mem_filter
  exact separate_changedFiles (fun f hf => h.listed (hmem f hf)) (h.distinct.filter _)
    fun f hf => ⟨h.linkless (hmem f hf), h.linkless_staging (hmem f hf) (hfree f hf)⟩

end Report.Sourced

end Remedy
