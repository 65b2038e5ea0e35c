import Mathlib
import Remedy.Codemod.BuiltIn
import Remedy.Command.Fix
import Remedy.Proofs.Run.Reports
import Remedy.Proofs.Run.Whole
import Remedy.Proofs.Text.Encoding
/-!
# What a fix leaves alone

The trial of the output leaves no trace if what it has made is removed again
(`Command.tryWriting_cases`). So a fix ends in one of a few ways
(`Command.ends_fix`): it is stopped and has changed nothing, or it has written
its change-set and then, on demand, files that its report says are changed.
Nothing else is touched (`Command.spares_fix`), but for the other names and the
links that lead to the same files (`Command.not_sparedByPath`). A fix that
nothing is in the way of succeeds (`Command.failure_fix_eq_none`).
-/

namespace Remedy

/-- What stops a run is in its surroundings or its settings, and not in a
step that failed. -/
def RunError.isFatal : RunError → Bool
  | .failed _ => false
  | _ => true

namespace Disk

/-- **A disk as file systems are**: a directory at the top, and names that
differ and can be written. -/
structure Sound (disk : Disk) : Prop where
  top : disk.top.isDirectory
  tidy : disk.top.Tidy

/-- The places that paths lead to, and all names of the files there. -/
def reached (disk : Disk) (paths : List Path) : Set (List String) :=
  {place | ∃ p ∈ paths, ∃ there, disk.place p false = .ok there ∧
    (place = there ∨ disk.Shares there place)}

/-- **Nothing has changed** but for the files at some paths. Every path that
leads elsewhere reads what it did. -/
structure Spares (before after : Disk) (paths : List Path) : Prop where
  elsewhere : ∀ place, place ∉ before.reached paths → after.view place = before.view place
  reads : ∀ p, (∀ place, before.place p true = .ok place → place ∉ before.reached paths) →
    (after.read p).toOption = (before.read p).toOption

variable {before after disk : Disk} {p : Path} {paths : List Path} {place : List String}

theorem closed_reached (disk : Disk) (paths : List Path) : disk.Closed (disk.reached paths) := by
  rintro place ⟨p, hp, there, hthere, hplace⟩ q ⟨number, hnumber, hq⟩
  refine ⟨p, hp, there, hthere, .inr ?_⟩
  rcases hplace with rfl | ⟨number', hthere', hplace'⟩
  · exact ⟨number, hnumber, hq⟩
  · obtain rfl := Option.some.inj (hplace'.symm.trans hnumber)
    exact ⟨number', hthere', hq⟩

theorem mem_reached (hp : p ∈ paths) (h : disk.place p false = .ok place) :
    place ∈ disk.reached paths := ⟨p, hp, place, h, .inl rfl⟩

theorem Within.spares (h : before.Within after (before.reached paths)) :
    before.Spares after paths :=
  ⟨h.elsewhere, fun _ hp =>
    h.sameWay.read_eq fun place hplace => h.elsewhere place (hp place hplace)⟩

/-- A file that is written is all that changes. -/
theorem within_write {host : Host} {content : Bytes} {result : Except FileFault Unit}
    (htop : disk.top.isDirectory) (hp : disk.Unlinked p) (hmem : p ∈ paths)
    (h : disk.write p content host = (after, result)) :
    disk.Within after (disk.reached paths) := by
  obtain ⟨rfl, -⟩ | ⟨place, written, hplace, hfilled, -⟩ := write_cases htop h
  · exact .refl (closed_reached after paths)
  · exact hfilled.within (closed_reached disk paths) (mem_reached hmem (hp.place_eq hplace))

end Disk

namespace WriteBack

variable {before after : Disk} {report : Report} {places : Set (List String)}

/-- The paths that the changed files of a report are written at. -/
def touched (report : Report) : List Path :=
  report.changedFiles.flatMap fun f =>
    [report.run.root.join f.path, staging (report.run.root.join f.path)]

/-- No link leads to these. -/
theorem Separate.linkless_touched {p : Path}
    (h : Separate before report.run.root (report.changedFiles.map FileResult.path))
    (hp : p ∈ touched report) : before.Linkless p := by
  obtain ⟨f, hf, hp⟩ := List.mem_flatMap.1 hp
  obtain ⟨htarget, hstaging⟩ := h.linkless f.path (List.mem_map_of_mem hf)
  rw [List.mem_cons, List.mem_singleton] at hp
  rcases hp with rfl | rfl
  · exact htarget
  · exact hstaging

/-- **Writing a report back** changes nothing but at the paths of its changed
files. -/
theorem within_ofReport (htop : before.top.isDirectory) (hclosed : before.Closed places)
    (hseparate : Separate before report.run.root (report.changedFiles.map FileResult.path))
    (hplaces : ∀ p ∈ touched report, ∀ place, before.place p true = .ok place → place ∈ places)
    (host : Host) : before.Within (ofReport before report host).1 places := by
  have hpaths : ∀ w ∈ pending report, ∃ f ∈ report.changedFiles, f.path = w.1 := fun w hw =>
    List.mem_map.1 ((pending_sublist report).subset (List.mem_map_of_mem hw))
  rw [ofReport_eq]
  refine within_writeFiles htop hclosed (fun w hw => ?_) (fun w hw p hp => ?_) 0 host
  · obtain ⟨f, hf, hpath⟩ := hpaths w hw
    exact hpath ▸ hseparate.linkless f.path (List.mem_map_of_mem hf)
  · obtain ⟨f, hf, hpath⟩ := hpaths w hw
    rw [← hpath] at hp
    exact hplaces p (List.mem_flatMap.2 ⟨f, hf, hp⟩)

end WriteBack

namespace Command

variable {disk after : Disk} {catalog : Catalog} {clock : RunClock} {cancellation : Cancellation}
  {request : FixRequest} {output : Path} {report : Report} {host : Host}
  {readers : Readers}

/-- **A host that takes an output back**: it removes it again when it has just
made it. -/
def Retracts (host : Host) (disk : Disk) (output : Path) : Prop :=
  ∀ made place, disk.create output host = .ok made → made.place output false = .ok place →
    host.refusal? made (.remove place) = none

/-- **The trial of an output leaves no trace**, unless it makes the output and
may not remove it. -/
theorem tryWriting_cases (htop : disk.top.isDirectory) (output : Path) (host : Host) :
    (∃ result, tryWriting disk output host = (disk, result)) ∨
      ¬ Retracts host disk output ∧
        ∃ made fault, tryWriting disk output host = (made, .error fault) := by
  unfold tryWriting
  split
  · exact .inl ⟨_, rfl⟩
  cases hcreate : disk.create output host with
  | error fault => exact .inl ⟨_, rfl⟩
  | ok made =>
    obtain ⟨place, hplace, hremove⟩ := Disk.removeFile_of_create htop hcreate
    dsimp only
    rw [hremove, Host.allow]
    cases hrefusal : host.refusal? made (.remove place) with
    | none => exact .inl ⟨.ok (), rfl⟩
    | some fault =>
      refine .inr ⟨fun hretracts => ?_, made, fault, rfl⟩
      rw [hretracts made place hcreate hplace] at hrefusal
      cases hrefusal

/-- **The trial of an output that can be written succeeds.** -/
theorem tryWriting_eq_ok {place : List String} (htop : disk.top.isDirectory)
    (houtput : disk.Unlinked output) (h : disk.target output true = .ok place) :
    tryWriting disk output = (disk, .ok ()) := by
  obtain ⟨hplace, hne, -⟩ := Disk.target_eq_ok_iff.1 h
  unfold tryWriting
  split
  case isTrue =>
    rw [Disk.canAppend, h]
    rfl
  case isFalse hholds =>
    rw [Disk.holds_eq hplace, Bool.not_eq_true, Option.isSome_eq_false_iff,
      Option.isNone_iff_eq_none] at hholds
    have hmade : disk.create output = _ := Disk.create_eq (houtput.place_eq hplace) hne hholds rfl
    obtain ⟨there, -, hremove⟩ := Disk.removeFile_of_create htop hmade
    simp only [hmade, hremove]
    rfl

/-- **The report of a fix**, which is made before anything is written. -/
def Reports (disk : Disk) (catalog : Catalog) (clock : RunClock) (cancellation : Cancellation)
    (request : FixRequest) (readers : Readers) (report : Report) : Prop :=
  ∃ config told, Config.load disk request.project = .ok config ∧
    runProject disk request.project request.reports (request.selection config) catalog
      (request.settings config) clock cancellation readers = .ok (report, told)

/-- The files that it says are changed can be written. -/
theorem Reports.separate (h : Reports disk catalog clock cancellation request readers report)
    (hdisk : disk.Sound) (hfree : ∀ f ∈ report.changedFiles,
      disk.Unlinked (WriteBack.staging (report.run.root.join f.path))) :
    WriteBack.Separate disk report.run.root (report.changedFiles.map FileResult.path) := by
  obtain ⟨config, told, -, hrun⟩ := h
  obtain ⟨place, hsourced⟩ := exists_sourced_of_runProject hdisk.tidy hrun
  exact hsourced.separate hfree

/-- **How a fix ends.** -/
inductive Ends (disk : Disk) (catalog : Catalog) (clock : RunClock) (cancellation : Cancellation)
    (request : FixRequest) (host : Host) (readers : Readers) : Outcome → Prop where
  /-- Before anything is written. -/
  | stopped (e : RunError) :
      Ends disk catalog clock cancellation request host readers (.failed disk e)
  /-- With an output that was made and could not be removed. -/
  | left (made : Disk) (reason : String) : ¬ Retracts host disk request.output →
      Ends disk catalog clock cancellation request host readers
        (.failed made (.unwritableOutput request.output reason))
  /-- While the change-set is written, where it could have been. -/
  | torn (after : Disk) (reason : String) :
      (tryWriting disk request.output host).2 = .ok () →
      Ends disk catalog clock cancellation request host readers
        (.failed after (.unwritableOutput request.output reason))
  /-- With a change-set alone. -/
  | dry {report : Report} {content : Bytes} {after : Disk} (summary : String) :
      Reports disk catalog clock cancellation request readers report →
      disk.write request.output content host = (after, .ok ()) → request.write = false →
      Ends disk catalog clock cancellation request host readers (.done after summary)
  /-- With all changed files written. -/
  | written {report : Report} {content : Bytes} {between after : Disk} {n : Nat}
      (summary : String) :
      Reports disk catalog clock cancellation request readers report →
      disk.write request.output content host = (between, .ok ()) → request.write = true →
      WriteBack.ofReport between report host = (after, .ok n) →
      Ends disk catalog clock cancellation request host readers (.done after summary)
  /-- While the changed files are written. -/
  | broken (after : Disk) (causes : List String) :
      Ends disk catalog clock cancellation request host readers (.failed after (.failed causes))

theorem ends_finish (h : Reports disk catalog clock cancellation request readers report)
    (htry : (tryWriting disk request.output host).2 = .ok ()) (verbose : Bool) :
    Ends disk catalog clock cancellation request host readers
      (finish disk request verbose report host) := by
  unfold finish
  rcases hwrite : disk.write request.output (Utf8.encode (request.format.write report)) host with
    ⟨between, fault | ⟨⟩⟩
  · exact .torn between _ htry
  · dsimp only
    split
    case isTrue hrequest =>
      rcases hback : WriteBack.ofReport between report host with ⟨after, e | n⟩
      · obtain ⟨causes, rfl⟩ := WriteBack.exists_causes hback
        exact .broken after causes
      · exact .written _ h hwrite hrequest hback
    case isFalse hrequest => exact .dry _ h hwrite (Bool.eq_false_iff.2 hrequest)

/-- **A fix ends in one of these ways.** -/
theorem ends_fix (htop : disk.top.isDirectory) (catalog : Catalog) (clock : RunClock)
    (cancellation : Cancellation) (request : FixRequest) (verbose : Bool) (host : Host)
    (readers : Readers) :
    Ends disk catalog clock cancellation request host readers
      (fix disk catalog clock cancellation request verbose host readers) := by
  unfold fix
  cases hconfig : Config.load disk request.project with
  | error e => exact .stopped e
  | ok config =>
    dsimp only
    obtain ⟨fault | ⟨⟩, htry⟩ | ⟨hleft, made, fault, htry⟩ :=
      tryWriting_cases htop request.output host <;> rw [htry] <;> dsimp only
    · exact .stopped _
    · rcases hrun : runProject disk request.project request.reports (request.selection config)
        catalog (request.settings config) clock cancellation readers with e | ⟨report, told⟩
      · exact .stopped e
      · exact ends_finish ⟨config, told, hconfig, hrun⟩ (by rw [htry]) verbose
    · exact .left made _ hleft

/-- A fix whose output can be written comes to its report, if the host is
willing. -/
theorem fix_eq_finish {place : List String} (htop : disk.top.isDirectory)
    (houtput : disk.Unlinked request.output)
    (htarget : disk.target request.output true = .ok place)
    (hreport : Reports disk catalog clock cancellation request readers report) (verbose : Bool) :
    fix disk catalog clock cancellation request verbose .willing readers =
      finish disk request verbose report := by
  obtain ⟨config, told, hconfig, hrun⟩ := hreport
  unfold fix
  simp only [hconfig, tryWriting_eq_ok htop houtput htarget, hrun]

/-- **A fix that nothing is in the way of succeeds**, if the host is willing. -/
theorem failure_fix_eq_none (hdisk : disk.Sound) (houtput : disk.Unlinked request.output)
    (htarget : ∃ place, disk.target request.output true = .ok place)
    (hreport : Reports disk catalog clock cancellation request readers report)
    (hstaging : ∀ f ∈ report.changedFiles,
      disk.Unlinked (WriteBack.staging (report.run.root.join f.path)))
    (hfree : ∀ f ∈ report.changedFiles,
      WriteBack.Writable disk (report.run.root.join f.path)) (verbose : Bool) :
    (fix disk catalog clock cancellation request verbose .willing readers).failure = none := by
  have hseparate := hreport.separate hdisk hstaging
  obtain ⟨place, hplace⟩ := htarget
  have hwrite : disk.write request.output (Utf8.encode (request.format.write report)) =
      (disk.fill place (Utf8.encode (request.format.write report)), .ok ()) :=
    Disk.write_eq hplace rfl _
  -- the change-set is written first, and the changed files can still be reached behind it
  have hsame := (Disk.within_write hdisk.top houtput (List.mem_singleton_self _) hwrite).sameWay
  have hpaths : ∀ w ∈ WriteBack.pending report, ∃ f ∈ report.changedFiles, f.path = w.1 :=
    fun w hw => List.mem_map.1
      ((WriteBack.pending_sublist report).subset (List.mem_map_of_mem hw))
  obtain ⟨after, n, hback⟩ := WriteBack.exists_writeFiles (hsame.isDirectory_top hdisk.top)
    (fun w hw => by
      obtain ⟨f, hf, hpath⟩ := hpaths w hw
      rw [← hpath]
      exact (hseparate.congr hsame).linkless f.path (List.mem_map_of_mem hf))
    (fun w hw => by
      obtain ⟨f, hf, hpath⟩ := hpaths w hw
      rw [← hpath]
      exact (hfree f hf).congr hsame) 0
  rw [← WriteBack.ofReport_eq] at hback
  rw [fix_eq_finish hdisk.top houtput hplace hreport]
  unfold finish
  simp only [hwrite, hback]
  split <;> rfl

/-- A fix that does not write its files writes the output. -/
theorem exists_done_of_dry {place : List String} (htop : disk.top.isDirectory)
    (houtput : disk.Unlinked request.output)
    (htarget : disk.target request.output true = .ok place)
    (hreport : Reports disk catalog clock cancellation request readers report)
    (hdry : request.write = false) (verbose : Bool) :
    ∃ summary, fix disk catalog clock cancellation request verbose .willing readers =
      .done (disk.fill place (Utf8.encode (request.format.write report))) summary := by
  have hwrite : disk.write request.output (Utf8.encode (request.format.write report)) =
      (disk.fill place (Utf8.encode (request.format.write report)), .ok ()) :=
    Disk.write_eq htarget rfl _
  rw [fix_eq_finish htop houtput htarget hreport]
  unfold finish
  simp only [hwrite, hdry]
  exact ⟨_, rfl⟩

/-- A change-set that is written, and changed files after it, are all that
changes. -/
theorem Reports.spares {between : Disk} {content : Bytes} {result : Except RunError Nat}
    (hreport : Reports disk catalog clock cancellation request readers report)
    (hdisk : disk.Sound) (houtput : disk.Unlinked request.output)
    (hfree : ∀ f ∈ report.changedFiles,
      disk.Unlinked (WriteBack.staging (report.run.root.join f.path)))
    (hwrite : disk.write request.output content host = (between, .ok ()))
    (hback : WriteBack.ofReport between report host = (after, result)) :
    disk.Spares after (request.output :: WriteBack.touched report) := by
  have hfirst : disk.Within between (disk.reached (request.output :: WriteBack.touched report)) :=
    Disk.within_write hdisk.top houtput List.mem_cons_self hwrite
  have hsame := hfirst.sameWay
  have hseparate := hreport.separate hdisk hfree
  have hplaces : ∀ p ∈ WriteBack.touched report, ∀ place, between.place p true = .ok place →
      place ∈ disk.reached (request.output :: WriteBack.touched report) := by
    intro p hp place hplace
    have hbefore := hsame.place_eq_ok_iff.1 hplace
    exact Disk.mem_reached (List.mem_cons_of_mem _ hp)
      ((hseparate.linkless_touched hp).place_eq hbefore false)
  have hsecond := WriteBack.within_ofReport (hsame.isDirectory_top hdisk.top) hfirst.closed
    (hseparate.congr hsame) hplaces host
  rw [hback] at hsecond
  exact (hfirst.trans hsecond).spares

/-- **A fix touches nothing that it should not.** For any disk as file systems
are, with no link at the output, and any fix and host: if its surroundings or
its settings stop it, the disk is as it was. So it is if the trial of the output
stops it, as long as the host takes back the output that the trial makes. If it
succeeds without writing, at most the file at the output has changed. If it
succeeds and writes, at most that file, those that its report says are changed,
and what is beside them; here no link may be beside them before. What the files
are read with does not matter. -/
theorem spares_fix (hdisk : disk.Sound) (houtput : disk.Unlinked request.output)
    (hstaging : ∀ report, Reports disk catalog clock cancellation request readers report →
      ∀ f ∈ report.changedFiles,
        disk.Unlinked (WriteBack.staging (report.run.root.join f.path)))
    (verbose : Bool) (host : Host) :
    (∀ e, (fix disk catalog clock cancellation request verbose host readers).failure = some e →
      e.isFatal → (∀ p reason, e = .unwritableOutput p reason →
        (∃ fault, (tryWriting disk request.output host).2 = .error fault) ∧
          Retracts host disk request.output) →
      (fix disk catalog clock cancellation request verbose host readers).disk = disk) ∧
    ((fix disk catalog clock cancellation request verbose host readers).failure = none →
      request.write = false →
      disk.Spares (fix disk catalog clock cancellation request verbose host readers).disk
        [request.output]) ∧
    ((fix disk catalog clock cancellation request verbose host readers).failure = none →
      request.write = true →
      ∃ report, Reports disk catalog clock cancellation request readers report ∧
        disk.Spares (fix disk catalog clock cancellation request verbose host readers).disk
          (request.output :: WriteBack.touched report)) := by
  have hends := ends_fix hdisk.top catalog clock cancellation request verbose host readers
  generalize fix disk catalog clock cancellation request verbose host readers = outcome at hends ⊢
  cases hends with
  | stopped e => exact ⟨fun _ _ _ _ => rfl, (nomatch ·), (nomatch ·)⟩
  | left made reason hleft =>
    refine ⟨fun e he _ htrial => ?_, (nomatch ·), (nomatch ·)⟩
    exact absurd (htrial request.output reason (Option.some.inj he).symm).2 hleft
  | torn after reason htry =>
    refine ⟨fun e he _ htrial => ?_, (nomatch ·), (nomatch ·)⟩
    obtain ⟨⟨fault, hfault⟩, -⟩ := htrial request.output reason (Option.some.inj he).symm
    rw [htry] at hfault
    cases hfault
  | dry summary hreport hwrite hdry =>
    refine ⟨fun _ => (nomatch ·), fun _ _ => ?_, fun _ hwet => ?_⟩
    · exact (Disk.within_write hdisk.top houtput (List.mem_singleton_self _) hwrite).spares
    · rw [hdry] at hwet
      cases hwet
  | @written report content between after n summary hreport hwrite hwet hback =>
    refine ⟨fun _ => (nomatch ·), fun _ hdry => ?_, fun _ _ => ⟨report, hreport, ?_⟩⟩
    · rw [hwet] at hdry
      cases hdry
    · exact hreport.spares hdisk houtput (hstaging report hreport) hwrite hback
  | broken after causes =>
    refine ⟨fun e he hfatal => ?_, (nomatch ·), (nomatch ·)⟩
    cases he
    cases hfatal

/-! ## Fixes of small projects -/

/-- A fix of a small project. -/
def smallFix (write : Bool) : FixRequest :=
  { FixRequest.default with project := ⟨"/repo"⟩, output := ⟨"/repo/out.json"⟩, write := write }

/-- Where the paths of the project lead. All of them are read at once. -/
theorem steps_project :
    (∀ p ∈ [("/repo/out.json", "out.json"), ("/repo/latest.json", "latest.json"),
        ("/repo/copy.json", "copy.json"), ("/repo/.codefixer.yml", Config.fileName)],
      ((⟨"/"⟩ : Path).join ⟨p.1⟩).steps = [.root, .name "repo", .name p.2] ∧ p.1 ≠ "") ∧
    (⟨"/repo"⟩ : Path).join ⟨Config.fileName⟩ = ⟨"/repo/.codefixer.yml"⟩ ∧
    ((⟨"/"⟩ : Path).join ⟨"/repo"⟩).steps = [.root, .name "repo"] ∧
    Path.ofPlace ["repo"] = ⟨"/repo"⟩ ∧
    (⟨"out.json"⟩ : Path).steps = [.name "out.json"] := by
  decide +kernel

/-- The place of the output. -/
theorem ready_output (entries : List (String × FileNode)) (write : Bool)
    (hway : (WriteBack.projectOf entries).way ["repo", "out.json"] = none) :
    (WriteBack.projectOf entries).Unlinked (smallFix write).output ∧
      (WriteBack.projectOf entries).target (smallFix write).output true =
        .ok ["repo", "out.json"] := by
  obtain ⟨hsteps, htext⟩ := steps_project.1 ("/repo/out.json", "out.json") (by simp)
  obtain ⟨hlink, htarget⟩ := WriteBack.ready entries hsteps htext hway
  exact ⟨hlink.unlinked rfl, htarget⟩

theorem ofPath_projectOf (entries : List (String × FileNode)) :
    Project.ofPath (WriteBack.projectOf entries) ⟨"/repo"⟩ =
      .ok ⟨⟨"/repo"⟩, .directory entries⟩ := by
  obtain ⟨-, -, hsteps, hwritten, -⟩ := steps_project
  have hplace : (WriteBack.projectOf entries).place ⟨"/repo"⟩ true = .ok ["repo"] := by
    rw [Disk.place_eq_ok_iff, Disk.stepsOf, WriteBack.projectOf, hsteps]
    exact ⟨by simp, .root (.enter rfl .arrived)⟩
  have hthere : (WriteBack.projectOf entries).top.at? ["repo"] = some (.directory entries) := rfl
  rw [Project.ofPath, Disk.find, hplace]
  simp only [bind, Except.bind, hthere]
  rw [← hwritten]
  rfl

/-- A project that says nothing has a report. -/
theorem exists_reports (entries : List (String × FileNode)) (write : Bool)
    (hnone : (WriteBack.projectOf entries).top.at? ["repo", ".codefixer.yml"] = none) :
    ∃ report, Reports (WriteBack.projectOf entries) .builtIn (.fixed 0) .never (smallFix write)
      .standard report := by
  have hconfig : Config.load (WriteBack.projectOf entries) ⟨"/repo"⟩ = .ok .default := by
    obtain ⟨hsteps, htext⟩ := steps_project.1 ("/repo/.codefixer.yml", Config.fileName) (by simp)
    obtain ⟨-, hplace⟩ := WriteBack.ready entries hsteps htext
      (Disk.way_eq_none_iff.2 (.inl hnone))
    have hgone : (WriteBack.projectOf entries).top.at? ["repo", Config.fileName] = none := hnone
    have hholds := Disk.holds_eq (Disk.target_eq_ok_iff.1 hplace).1
    rw [← steps_project.2.1, hgone] at hholds
    rw [Config.load]
    simp only [hholds]
    rfl
  exact ⟨_, _, _, hconfig, runProject_eq_ok _ _ _ _ _ _ _ _ (ofPath_projectOf entries) rfl rfl⟩

theorem plain_shelf : ∀ name ∈ ["repo", "A.java", "B.xml"], (PathComponent.name name).Plain := by
  unfold PathComponent.Plain
  decide +kernel

/-- A disk with a project on it is as file systems are. -/
theorem sound_projectOf {entries : List (String × FileNode)} (hnames : (entries.map Prod.fst).Nodup)
    (hplain : ∀ entry ∈ entries, (PathComponent.name entry.1).Plain)
    (htidy : ∀ entry ∈ entries, entry.2.Tidy) : (WriteBack.projectOf entries).Sound :=
  ⟨rfl, .directory (List.nodup_singleton _)
    (List.forall_mem_singleton.2 (plain_shelf "repo" List.mem_cons_self))
    (List.forall_mem_singleton.2 (.directory hnames hplain htidy))⟩

theorem sound_shelf : WriteBack.shelf.Sound := by
  have hplain := plain_shelf
  simp only [List.forall_mem_cons] at hplain
  exact sound_projectOf (by decide)
    (List.forall_mem_cons.2 ⟨hplain.2.1, List.forall_mem_singleton.2 hplain.2.2.1⟩)
    (List.forall_mem_cons.2 ⟨.file _ _, List.forall_mem_singleton.2 (.file _ _)⟩)

/-- The two files are all that a report on the project can list. -/
theorem path_mem_of_reports_shelf {write : Bool}
    (h : Reports WriteBack.shelf .builtIn (.fixed 0) .never (smallFix write) .standard report) :
    report.run.root = ⟨"/repo"⟩ ∧
      ∀ f ∈ report.changedFiles, f.path ∈ [(⟨"A.java"⟩ : Path), ⟨"B.xml"⟩] := by
  obtain ⟨config, told, -, hrun⟩ := h
  obtain ⟨project, filter, hproject, hroot, hfiles⟩ := exists_project_of_runProject hrun
  obtain rfl := Except.ok.inj ((ofPath_projectOf _).symm.trans hproject)
  have hfound : (Sources.ofEntries [] [("A.java", .file [97]), ("B.xml", .file [98])]).map
      Sources.relative = [⟨"A.java"⟩, ⟨"B.xml"⟩] := by decide +kernel
  refine ⟨hroot, fun f hf => ?_⟩
  have hmem := List.mem_of_mem_filter
    (hfiles.subset (List.mem_map_of_mem (List.mem_of_mem_filter hf)))
  rw [Sources.below, List.mem_mergeSort] at hmem
  exact hfound ▸ hmem

/-- The files of the project are ready to be written. -/
theorem ready_shelf : ∀ p ∈ [(⟨"A.java"⟩ : Path), ⟨"B.xml"⟩],
    WriteBack.shelf.Linkless (WriteBack.staging ((⟨"/repo"⟩ : Path).join p)) ∧
      WriteBack.Writable WriteBack.shelf ((⟨"/repo"⟩ : Path).join p) := by
  have hjava := WriteBack.ready_java [("A.java", .file [97]), ("B.xml", .file [98])] rfl rfl
  have hxml := WriteBack.ready_xml [("A.java", .file [97]), ("B.xml", .file [98])] rfl rfl
  exact List.forall_mem_cons.2 ⟨⟨hjava.linkless_staging, ⟨_, hjava.target⟩, _, hjava.beside⟩,
    List.forall_mem_singleton.2 ⟨hxml.linkless_staging, ⟨_, hxml.target⟩, _, hxml.beside⟩⟩

/-- It succeeds, and at most what it was to write has changed. -/
theorem spares_shelfFix :
    (fix WriteBack.shelf .builtIn (.fixed 0) .never (smallFix true) false).failure = none ∧
    ∃ report, Reports WriteBack.shelf .builtIn (.fixed 0) .never (smallFix true) .standard report ∧
      WriteBack.shelf.Spares
        (fix WriteBack.shelf .builtIn (.fixed 0) .never (smallFix true) false).disk
        ((smallFix true).output :: WriteBack.touched report) := by
  obtain ⟨report, hreport⟩ :=
    exists_reports [("A.java", .file [97]), ("B.xml", .file [98])] true rfl
  obtain ⟨houtput, htarget⟩ :=
    ready_output [("A.java", .file [97]), ("B.xml", .file [98])] true rfl
  have hstaging : ∀ report,
      Reports WriteBack.shelf .builtIn (.fixed 0) .never (smallFix true) .standard report →
      ∀ f ∈ report.changedFiles,
        WriteBack.shelf.Unlinked (WriteBack.staging (report.run.root.join f.path)) := by
    intro report hreport f hf
    obtain ⟨hroot, hpaths⟩ := path_mem_of_reports_shelf hreport
    rw [hroot]
    exact (ready_shelf f.path (hpaths f hf)).1.unlinked rfl
  have hfree : ∀ f ∈ report.changedFiles,
      WriteBack.Writable WriteBack.shelf (report.run.root.join f.path) := by
    intro f hf
    obtain ⟨hroot, hpaths⟩ := path_mem_of_reports_shelf hreport
    rw [hroot]
    exact (ready_shelf f.path (hpaths f hf)).2
  have hsuccess := failure_fix_eq_none sound_shelf houtput ⟨_, htarget⟩ hreport
    (hstaging report hreport) hfree false
  exact ⟨hsuccess, (spares_fix sound_shelf houtput hstaging false .willing).2.2 hsuccess rfl⟩

/-! ## Other paths to the output -/

/-- A host that removes no file, as for a directory that files may only be
added to. -/
def keeper : Host :=
  { Host.willing with
    refusal? := fun _ operation =>
      match operation with
      | .remove _ => some (.other "Operation not permitted" 1)
      | _ => none }

/-- A link to the output, which is not there yet. -/
def linkedOutput : Disk :=
  WriteBack.projectOf [("A.java", .file [97]), ("latest.json", .link "out.json")]

/-- An output that has another name. -/
def namedOutput : Disk :=
  WriteBack.projectOf [("A.java", .file [97]), ("out.json", .file [] (some 0)),
    ("copy.json", .file [] (some 0))]

/-- A link to the output reads the change-set. -/
theorem read_ne_linkedOutput : linkedOutput.Unlinked (smallFix false).output ∧
    (fix linkedOutput .builtIn (.fixed 0) .never (smallFix false) false).failure = none ∧
    ((fix linkedOutput .builtIn (.fixed 0) .never (smallFix false) false).disk.read
      ⟨"/repo/latest.json"⟩).toOption ≠ (linkedOutput.read ⟨"/repo/latest.json"⟩).toOption := by
  obtain ⟨houtput, htarget⟩ :=
    ready_output [("A.java", .file [97]), ("latest.json", .link "out.json")] false rfl
  obtain ⟨report, hreport⟩ :=
    exists_reports [("A.java", .file [97]), ("latest.json", .link "out.json")] false rfl
  obtain ⟨summary, hfix⟩ := exists_done_of_dry rfl houtput htarget hreport rfl false
  obtain ⟨hsteps, htext⟩ := steps_project.1 ("/repo/latest.json", "latest.json") (by simp)
  obtain ⟨-, -, -, -, hother⟩ := steps_project
  have hbefore : linkedOutput.place ⟨"/repo/latest.json"⟩ true = .ok ["repo", "out.json"] :=
    WriteBack.place_linked _ hsteps htext hother rfl rfl
  have hafter : ∀ content, (linkedOutput.fill ["repo", "out.json"] content).place
      ⟨"/repo/latest.json"⟩ true = .ok ["repo", "out.json"] := fun content =>
    WriteBack.place_linked [("A.java", .file [97]), ("latest.json", .link "out.json"),
      ("out.json", .file content)] hsteps htext hother rfl rfl
  refine ⟨houtput, by rw [linkedOutput, hfix]; rfl, ?_⟩
  rw [linkedOutput, hfix, Outcome.done, ← linkedOutput, Disk.toOption_read (hafter _),
    Disk.toOption_read hbefore]
  nofun

/-- So does another name of it. -/
theorem read_ne_namedOutput : namedOutput.Unlinked (smallFix false).output ∧
    (fix namedOutput .builtIn (.fixed 0) .never (smallFix false) false).failure = none ∧
    ((fix namedOutput .builtIn (.fixed 0) .never (smallFix false) false).disk.read
      ⟨"/repo/copy.json"⟩).toOption ≠ (namedOutput.read ⟨"/repo/copy.json"⟩).toOption := by
  obtain ⟨houtput, htarget⟩ := ready_output [("A.java", .file [97]),
    ("out.json", .file [] (some 0)), ("copy.json", .file [] (some 0))] false rfl
  obtain ⟨report, hreport⟩ := exists_reports [("A.java", .file [97]),
    ("out.json", .file [] (some 0)), ("copy.json", .file [] (some 0))] false rfl
  obtain ⟨summary, hfix⟩ := exists_done_of_dry rfl houtput htarget hreport rfl false
  obtain ⟨hsteps, htext⟩ := steps_project.1 ("/repo/copy.json", "copy.json") (by simp)
  have hplace : ∀ content, (WriteBack.projectOf [("A.java", .file [97]),
      ("out.json", .file content (some 0)), ("copy.json", .file content (some 0))]).place
      ⟨"/repo/copy.json"⟩ true = .ok ["repo", "copy.json"] := fun content =>
    (Disk.target_eq_ok_iff.1 (WriteBack.ready _ hsteps htext rfl).2).1
  have hbefore : namedOutput.place ⟨"/repo/copy.json"⟩ true = .ok ["repo", "copy.json"] := hplace []
  have hafter : ∀ content, (namedOutput.fill ["repo", "out.json"] content).place
      ⟨"/repo/copy.json"⟩ true = .ok ["repo", "copy.json"] := hplace
  have hcontent : Utf8.encode ((smallFix false).format.write report) ≠ [] := by
    have hwritten : (smallFix false).format.write report = report.toJson.pretty ++ "\n" := rfl
    rw [hwritten, Utf8.encode_append]
    exact List.append_ne_nil_of_right_ne_nil _ (by decide)
  refine ⟨houtput, by rw [namedOutput, hfix]; rfl, ?_⟩
  rw [namedOutput, hfix, Outcome.done, ← namedOutput, Disk.toOption_read (hafter _),
    Disk.toOption_read hbefore]
  exact fun hsame => hcontent (Option.some.inj hsame)

/-- An output that is made and not removed stays. -/
theorem left_shelf : WriteBack.shelf.Unlinked (smallFix false).output ∧
    ∃ e, (fix WriteBack.shelf .builtIn (.fixed 0) .never (smallFix false) false keeper).failure =
        some e ∧ e.isFatal ∧
      (∀ p reason, e = .unwritableOutput p reason →
        ∃ fault, (tryWriting WriteBack.shelf (smallFix false).output keeper).2 = .error fault) ∧
      (fix WriteBack.shelf .builtIn (.fixed 0) .never (smallFix false) false keeper).disk ≠
        WriteBack.shelf := by
  obtain ⟨houtput, htarget⟩ :=
    ready_output [("A.java", .file [97]), ("B.xml", .file [98])] false rfl
  obtain ⟨report, config, told, hconfig, -⟩ :=
    exists_reports [("A.java", .file [97]), ("B.xml", .file [98])] false rfl
  obtain ⟨hplace, hne, -⟩ := Disk.target_eq_ok_iff.1 htarget
  have hholds : WriteBack.shelf.holds (smallFix false).output = false := Disk.holds_eq hplace
  have hmade : WriteBack.shelf.create (smallFix false).output keeper = .ok (WriteBack.projectOf
      [("A.java", .file [97]), ("B.xml", .file [98]), ("out.json", .file [])]) :=
    Disk.create_eq (houtput.place_eq hplace) hne rfl rfl
  obtain ⟨there, -, hremove⟩ := Disk.removeFile_of_create rfl hmade
  have htry : tryWriting WriteBack.shelf (smallFix false).output keeper =
      (WriteBack.projectOf [("A.java", .file [97]), ("B.xml", .file [98]),
        ("out.json", .file [])], .error (.other "Operation not permitted" 1)) := by
    unfold tryWriting
    simp only [hholds, hmade, hremove, Bool.false_eq_true, if_false]
    rfl
  have hfix : fix WriteBack.shelf .builtIn (.fixed 0) .never (smallFix false) false keeper =
      .failed (WriteBack.projectOf [("A.java", .file [97]), ("B.xml", .file [98]),
        ("out.json", .file [])]) (.unwritableOutput (smallFix false).output
          (FileFault.other "Operation not permitted" 1).message) := by
    have hloaded : Config.load WriteBack.shelf (smallFix false).project = .ok config := hconfig
    unfold fix
    simp only [hloaded, htry]
  rw [hfix, htry]
  refine ⟨houtput, _, rfl, rfl, fun _ _ _ => ⟨_, rfl⟩, fun hsame => ?_⟩
  have hview : (WriteBack.projectOf [("A.java", .file [97]), ("B.xml", .file [98]),
      ("out.json", .file [])]).top.at? ["repo", "out.json"] =
        WriteBack.shelf.top.at? ["repo", "out.json"] :=
    congrArg (fun disk : Disk => disk.top.at? ["repo", "out.json"]) hsame
  cases hview

/-- **More paths than the output's may read another text after a dry run**, which
a link or another name of it makes, **and a fix that is stopped may leave a new
output**, if it may not be removed. -/
theorem not_sparedByPath :
    (linkedOutput.Unlinked (smallFix false).output ∧
      (fix linkedOutput .builtIn (.fixed 0) .never (smallFix false) false).failure = none ∧
      ((fix linkedOutput .builtIn (.fixed 0) .never (smallFix false) false).disk.read
        ⟨"/repo/latest.json"⟩).toOption ≠ (linkedOutput.read ⟨"/repo/latest.json"⟩).toOption) ∧
    (namedOutput.Unlinked (smallFix false).output ∧
      (fix namedOutput .builtIn (.fixed 0) .never (smallFix false) false).failure = none ∧
      ((fix namedOutput .builtIn (.fixed 0) .never (smallFix false) false).disk.read
        ⟨"/repo/copy.json"⟩).toOption ≠ (namedOutput.read ⟨"/repo/copy.json"⟩).toOption) ∧
    WriteBack.shelf.Unlinked (smallFix false).output ∧
      ∃ e, (fix WriteBack.shelf .builtIn (.fixed 0) .never (smallFix false) false keeper).failure =
          some e ∧ e.isFatal ∧
        (∀ p reason, e = .unwritableOutput p reason →
          ∃ fault, (tryWriting WriteBack.shelf (smallFix false).output keeper).2 = .error fault) ∧
        (fix WriteBack.shelf .builtIn (.fixed 0) .never (smallFix false) false keeper).disk ≠
          WriteBack.shelf :=
  ⟨read_ne_linkedOutput, read_ne_namedOutput, left_shelf⟩

end Command

end Remedy
