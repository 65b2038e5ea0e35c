import Mathlib
import Remedy.Proofs.Run.Sourced
/-!
# A report is written back whole

The changed files of a report are each as they were or as they are to be,
wherever its writing ends, if they and what is beside them are at different
places (`WriteBack.whole_ofReport`). That is so for the reports that runs make.
It takes more than different paths without links: one file may be beside
another one, two paths may lead to one file, and other paths may lead to the
files that are written (`WriteBack.not_wholeByPath`).
-/

namespace Remedy

namespace WriteBack

variable {before after disk : Disk} {report : Report} {p : Path} {name : String}

/-- **Files on disk are old or new.** On any disk and for any host, take a
report whose changed files lead to different places, none of them beside
another one, with no link on their paths or at the places beside them and no
file of several names at these: if all is written, as many files are written
as have new content, they all hold it, nothing is left beside them and nothing
else has changed. If the writing fails, that holds of a first part of the files,
and all other changed files hold what they held. On a disk as file systems are,
the report of a run is such a report as long as no link is beside its files. -/
theorem whole_ofReport (htop : disk.top.isDirectory) :
    (∀ (report : Report) (host : Host) (after : Disk),
      Separate disk report.run.root (report.changedFiles.map FileResult.path) →
      (∀ f ∈ report.changedFiles, disk.Sole (staging (report.run.root.join f.path))) →
      (∀ n, ofReport disk report host = (after, .ok n) →
        n = (report.changedFiles.filter fun f => f.encoded.isSome).length ∧
          Whole disk after report (pending report) []) ∧
      ∀ e, ofReport disk report host = (after, .error e) →
        ∃ done rest, rest ≠ [] ∧ Whole disk after report done rest) ∧
    ∀ (root : Path) (reports : List Path) (selection : Selection) (catalog : Catalog)
      (settings : RunSettings) (clock : RunClock) (cancellation : Cancellation)
      (readers : Readers) (report : Report) (told : List RunEvent), disk.top.Tidy →
      runProject disk root reports selection catalog settings clock cancellation readers =
        .ok (report, told) →
      (∀ f ∈ report.changedFiles, disk.Unlinked (staging (report.run.root.join f.path))) →
      Separate disk report.run.root (report.changedFiles.map FileResult.path) := by
  constructor
  · intro report host after hseparate hsole
    constructor
    · intro n h
      obtain ⟨done, rest, hwhole, rfl, hcount⟩ := exists_whole htop hseparate hsole h
      have hall : pending report = done := by rw [hwhole.split, List.append_nil]
      refine ⟨?_, hall ▸ hwhole⟩
      rw [hcount, ← List.length_map (f := Prod.fst), map_fst_pending, List.length_map]
    · intro e h
      obtain ⟨done, rest, hwhole, hrest⟩ := exists_whole htop hseparate hsole h
      exact ⟨done, rest, hrest, hwhole⟩
  · intro root reports selection catalog settings clock cancellation readers report told htidy
      hrun hfree
    obtain ⟨place, hsourced⟩ := exists_sourced_of_runProject htidy hrun
    exact hsourced.separate hfree

/-! ## Small projects -/

/-- A disk with one project on it. -/
def projectOf (entries : List (String × FileNode)) : Disk :=
  ⟨.directory [("repo", .directory entries)], ⟨"/"⟩⟩

/-- A path into the project, where no directory and no link stands. -/
theorem ready (entries : List (String × FileNode))
    (hsteps : ((⟨"/"⟩ : Path).join p).steps = [.root, .name "repo", .name name])
    (htext : p.text ≠ "") (hway : (projectOf entries).way ["repo", name] = none) :
    (projectOf entries).Linkless p ∧ (projectOf entries).target p true = .ok ["repo", name] := by
  have hleads : (projectOf entries).Leads true 0 [] ((projectOf entries).stepsOf p)
      ["repo", name] := by
    rw [Disk.stepsOf, projectOf, hsteps]
    exact .root (.enter rfl (.last hway))
  refine ⟨Disk.linkless_of_leads hleads, Disk.target_eq_ok_iff.2
    ⟨Disk.place_eq_ok_iff.2 ⟨htext, hleads.of_zero true _⟩, List.cons_ne_nil _ _, fun hdir => ?_⟩⟩
  rw [Disk.way, hdir] at hway
  cases hway

/-- A path to a link in the project leads to what the link names there. -/
theorem place_linked {target : String} (entries : List (String × FileNode))
    (hsteps : ((⟨"/"⟩ : Path).join p).steps = [.root, .name "repo", .name name])
    (htext : p.text ≠ "") {other : String} (hother : (⟨target⟩ : Path).steps = [.name other])
    (hlink : (projectOf entries).way ["repo", name] = some (.link target))
    (hway : (projectOf entries).way ["repo", other] = none) :
    (projectOf entries).place p true = .ok ["repo", other] := by
  rw [Disk.place_eq_ok_iff, Disk.stepsOf, projectOf, hsteps]
  refine ⟨htext, .root (.enter rfl (.follow hlink (by simp) ?_))⟩
  rw [hother]
  exact .last hway

/-- A file with new content. -/
def renewed (path : Path) (content : Bytes) : FileResult :=
  { path := path, language := .java, encoding := .utf8, lineEnding := .none, changes := []
    diff := [⟨⟨0, 1⟩, ⟨0, 1⟩, ⟨0, 1⟩, "a", "A"⟩], unified := "", skipped := [], errors := []
    resolutionGaps := 0, transformed := none, encoded := some content }

/-- A report on files with new content. -/
def renewal (files : List FileResult) : Report :=
  { run := ⟨0, 0, 0, ⟨"/repo"⟩, [], [], [], [], ⟨0, 0, 0, 0, 0⟩, false⟩
    totals := ⟨2, 2, 0, 0, 0, 2, 0, 0, 0⟩
    files, reportErrors := [], unmatched := [] }

/-- The paths of a file of the project and of what is beside it, which are
free. -/
structure Ready (entries : List (String × FileNode)) (p : Path) (name : String) : Prop where
  linkless : (projectOf entries).Linkless p
  linkless_staging : (projectOf entries).Linkless (staging p)
  target : (projectOf entries).target p true = .ok ["repo", name]
  beside : (projectOf entries).target (staging p) true = .ok ["repo", stagingName name]

theorem ready_source (entries : List (String × FileNode))
    (hpaths : p.text ≠ "" ∧ (staging p).text ≠ "" ∧
      ((⟨"/"⟩ : Path).join p).steps = [.root, .name "repo", .name name] ∧
      ((⟨"/"⟩ : Path).join (staging p)).steps = [.root, .name "repo", .name (stagingName name)])
    (hway : (projectOf entries).way ["repo", name] = none)
    (hway' : (projectOf entries).way ["repo", stagingName name] = none) :
    Ready entries p name := by
  obtain ⟨htext, htext', hsteps, hsteps'⟩ := hpaths
  obtain ⟨hlink, htarget⟩ := ready entries hsteps htext hway
  obtain ⟨hlink', htarget'⟩ := ready entries hsteps' htext' hway'
  exact ⟨hlink, hlink', htarget, htarget'⟩

/-- A file of the project is written. -/
theorem writeFile_ready {entries : List (String × FileNode)} (h : Ready entries p name)
    (content : Bytes) : writeFile (projectOf entries) p content =
      (((projectOf entries).fill ["repo", stagingName name] content).move
        ["repo", stagingName name] ["repo", name]
        (.file content ((projectOf entries).numberAt ["repo", stagingName name])), .ok ()) :=
  writeFile_eq rfl h.linkless h.linkless_staging h.target h.beside rfl rfl rfl

/-- Where the paths of the project's files lead. -/
theorem steps_join : ∀ p ∈ [("A.java", "A.java"), ("/repo/A.java", "A.java"), ("B.xml", "B.xml"),
      ("B.txt", "B.txt"), (".A.java.codefixer", ".A.java.codefixer")],
    ((⟨"/repo"⟩ : Path).join ⟨p.1⟩).text ≠ "" ∧
      (staging ((⟨"/repo"⟩ : Path).join ⟨p.1⟩)).text ≠ "" ∧
      ((⟨"/"⟩ : Path).join ((⟨"/repo"⟩ : Path).join ⟨p.1⟩)).steps =
        [.root, .name "repo", .name p.2] ∧
      ((⟨"/"⟩ : Path).join (staging ((⟨"/repo"⟩ : Path).join ⟨p.1⟩))).steps =
        [.root, .name "repo", .name (stagingName p.2)] := by
  decide +kernel

theorem ready_join (entries : List (String × FileNode)) (text name : String)
    (hpath : (text, name) ∈ [("A.java", "A.java"), ("/repo/A.java", "A.java"), ("B.xml", "B.xml"),
      ("B.txt", "B.txt"), (".A.java.codefixer", ".A.java.codefixer")])
    (hway : (projectOf entries).way ["repo", name] = none)
    (hway' : (projectOf entries).way ["repo", stagingName name] = none) :
    Ready entries ((⟨"/repo"⟩ : Path).join ⟨text⟩) name :=
  ready_source entries (steps_join (text, name) hpath) hway hway'

/-- A project of two files. -/
def shelf : Disk := projectOf [("A.java", .file [97]), ("B.xml", .file [98])]

/-- A report on both files with new content. -/
def twoRenewed : Report := renewal [renewed ⟨"A.java"⟩ [65], renewed ⟨"B.xml"⟩ [66]]

/-- A host that has no space left for the second file. -/
def cramped : Host :=
  { Host.willing with
    breach? := fun _ place _ =>
      if place = ["repo", ".B.xml.codefixer"] then
        some (0, .other "No space left on device" 28)
      else none }

theorem ready_java (entries : List (String × FileNode))
    (hway : (projectOf entries).way ["repo", "A.java"] = none)
    (hway' : (projectOf entries).way ["repo", ".A.java.codefixer"] = none) :
    Ready entries ((⟨"/repo"⟩ : Path).join ⟨"A.java"⟩) "A.java" :=
  ready_join entries "A.java" "A.java" (by simp) hway hway'

theorem ready_xml (entries : List (String × FileNode))
    (hway : (projectOf entries).way ["repo", "B.xml"] = none)
    (hway' : (projectOf entries).way ["repo", ".B.xml.codefixer"] = none) :
    Ready entries ((⟨"/repo"⟩ : Path).join ⟨"B.xml"⟩) "B.xml" :=
  ready_join entries "B.xml" "B.xml" (by simp) hway hway'

/-- What is beside a file that is ready has one name. -/
theorem Ready.sole {entries : List (String × FileNode)} (h : Ready entries p name)
    (hsole : (projectOf entries).numberAt ["repo", stagingName name] = none) :
    (projectOf entries).Sole (staging p) := by
  intro place hplace
  obtain rfl := Except.ok.inj (hplace.symm.trans (Disk.target_eq_ok_iff.1 h.beside).1)
  exact hsole

theorem Ready.toOption_read {entries : List (String × FileNode)} (h : Ready entries p name) :
    ((projectOf entries).read p).toOption = match (projectOf entries).top.at? ["repo", name] with
      | some (.file content _) => some content
      | _ => none :=
  Disk.toOption_read (Disk.target_eq_ok_iff.1 h.target).1

/-- The files of the project can be written one after the other. -/
theorem separate_twoRenewed :
    Separate shelf twoRenewed.run.root (twoRenewed.changedFiles.map FileResult.path) ∧
      ∀ f ∈ twoRenewed.changedFiles, shelf.Sole (staging (twoRenewed.run.root.join f.path)) := by
  have hjava := ready_java [("A.java", .file [97]), ("B.xml", .file [98])] rfl rfl
  have hxml := ready_xml [("A.java", .file [97]), ("B.xml", .file [98])] rfl rfl
  have hlisted : ∀ f ∈ twoRenewed.changedFiles, Listed f.path := List.forall_mem_cons.2
    ⟨listed_of_source (List.cons_ne_nil "A.java" []) (by decide +kernel) (by decide +kernel),
      List.forall_mem_singleton.2
        (listed_of_source (List.cons_ne_nil "B.xml" []) (by decide +kernel) (by decide +kernel))⟩
  exact ⟨separate_changedFiles hlisted (by decide +kernel) (List.forall_mem_cons.2
      ⟨⟨hjava.linkless, hjava.linkless_staging⟩,
        List.forall_mem_singleton.2 ⟨hxml.linkless, hxml.linkless_staging⟩⟩),
    List.forall_mem_cons.2 ⟨hjava.sole rfl, List.forall_mem_singleton.2 (hxml.sole rfl)⟩⟩

/-- Both files are written by a willing host. By one that breaks off the second
one, they are old or new all the same. -/
theorem whole_twoRenewed :
    (∃ after, ofReport shelf twoRenewed = (after, .ok 2) ∧
      Whole shelf after twoRenewed (pending twoRenewed) []) ∧
    ∃ after e done rest, ofReport shelf twoRenewed cramped = (after, .error e) ∧ rest ≠ [] ∧
      Whole shelf after twoRenewed done rest := by
  obtain ⟨hseparate, hsole⟩ := separate_twoRenewed
  have hjava := ready_java [("A.java", .file [97]), ("B.xml", .file [98])] rfl rfl
  have hxml := ready_xml [("A.java", .file [65]), ("B.xml", .file [98])] rfl rfl
  have hfirst : ∀ host : Host, host.refusal? = (fun _ _ => none) →
      host.breach? shelf ["repo", ".A.java.codefixer"] [65] = none →
      writeFile shelf ((⟨"/repo"⟩ : Path).join ⟨"A.java"⟩) [65] host =
        (projectOf [("A.java", .file [65]), ("B.xml", .file [98])], .ok ()) := by
    intro host hrefusal hbreach
    exact (writeFile_eq rfl hjava.linkless hjava.linkless_staging hjava.target hjava.beside
      (by rw [hrefusal]) hbreach (by rw [hrefusal])).trans rfl
  have hsecond : writeFile (projectOf [("A.java", .file [65]), ("B.xml", .file [98])])
      ((⟨"/repo"⟩ : Path).join ⟨"B.xml"⟩) [66] =
        (projectOf [("A.java", .file [65]), ("B.xml", .file [66])], .ok ()) :=
    (writeFile_ready hxml [66]).trans rfl
  constructor
  · have hrun : ofReport shelf twoRenewed =
        (projectOf [("A.java", .file [65]), ("B.xml", .file [66])], .ok 2) :=
      (writeFiles_of_ok (hfirst .willing rfl rfl) _ 0).trans (writeFiles_of_ok hsecond [] 1)
    exact ⟨_, hrun, (((whole_ofReport rfl).1 twoRenewed .willing _ hseparate hsole).1 2 hrun).2⟩
  · have hbroken : ((projectOf [("A.java", .file [65]), ("B.xml", .file [98])]).write
        (staging ((⟨"/repo"⟩ : Path).join ⟨"B.xml"⟩)) [66] cramped).2 =
          .error (.other "No space left on device" 28) := by
      rw [Disk.write_eq hxml.beside rfl]
      rfl
    have hrun : ofReport shelf twoRenewed cramped =
        writeFiles (projectOf [("A.java", .file [65]), ("B.xml", .file [98])]) ⟨"/repo"⟩
          [(⟨"B.xml"⟩, [66])] 1 cramped :=
      writeFiles_of_ok (hfirst cramped rfl rfl) _ 0
    rcases hend : ofReport shelf twoRenewed cramped with ⟨after, e | n⟩
    · obtain ⟨done, rest, hrest, hwhole⟩ :=
        ((whole_ofReport rfl).1 twoRenewed cramped after hseparate hsole).2 e hend
      exact ⟨after, e, done, rest, rfl, hrest, hwhole⟩
    · rw [hrun, writeFiles_cons] at hend
      obtain ⟨staged, fault, causes, -, hwrite⟩ | ⟨staged, fault, causes, hwrite, -, -⟩ |
          ⟨staged, replaced, hwrite, -, -⟩ := writeFile_cases
        (projectOf [("A.java", .file [65]), ("B.xml", .file [98])])
        ((⟨"/repo"⟩ : Path).join ⟨"B.xml"⟩) [66] cramped
      · rw [hwrite] at hend
        cases hend
      · rw [hwrite] at hbroken
        cases hbroken
      · rw [hwrite] at hbroken
        cases hbroken

/-! ## Two paths, one file -/

/-- What the paths of a report say of its files: they hold their new content,
and any other path reads what it did. -/
def WholeByPath (before after : Disk) (report : Report) : Prop :=
  (∀ w ∈ pending report, after.read (report.run.root.join w.1) = .ok w.2) ∧
    ∀ p, (∀ w ∈ pending report, p ≠ report.run.root.join w.1 ∧
      p ≠ staging (report.run.root.join w.1)) → (after.read p).toOption = (before.read p).toOption

/-- **A report whose paths are misleading**: they are different, no link is on
them or at the places beside them, all files are written, and something else
has become of them than the paths say. -/
structure Misleads (disk : Disk) (report : Report) : Prop where
  distinct : report.changedFiles.Pairwise fun f g => f.path.same g.path = false
  linkless : ∀ f ∈ report.changedFiles, disk.Linkless (report.run.root.join f.path) ∧
    disk.Linkless (staging (report.run.root.join f.path))
  written : ∃ after n, ofReport disk report = (after, .ok n) ∧ ¬ WholeByPath disk after report

/-- A report on one file that is ready misleads if something else has become of
it than its path says. -/
theorem misleads_of_ready {entries : List (String × FileNode)} {path : Path} {content : Bytes}
    (entries' : List (String × FileNode)) (h : Ready entries ((⟨"/repo"⟩ : Path).join path) name)
    (hmoved : ((projectOf entries).fill ["repo", stagingName name] content).move
      ["repo", stagingName name] ["repo", name]
      (.file content ((projectOf entries).numberAt ["repo", stagingName name])) =
        projectOf entries')
    (hread : ¬ WholeByPath (projectOf entries) (projectOf entries')
      (renewal [renewed path content])) :
    Misleads (projectOf entries) (renewal [renewed path content]) := by
  have hwrite : writeFile (projectOf entries) ((⟨"/repo"⟩ : Path).join path) content =
      (projectOf entries', .ok ()) := by rw [writeFile_ready h, hmoved]
  exact ⟨List.pairwise_singleton _ _, List.forall_mem_singleton.2 ⟨h.linkless, h.linkless_staging⟩,
    projectOf entries', 1, writeFiles_of_ok hwrite [] 0, hread⟩

/-- A file that is beside another one is moved away with its new content. -/
theorem misleads_besideAnother : Misleads
    (projectOf [("A.java", .file [97]), (".A.java.codefixer", .file [98])])
    (renewal [renewed ⟨".A.java.codefixer"⟩ [67], renewed ⟨"A.java"⟩ [65]]) := by
  have hbeside := ready_join [("A.java", .file [97]), (".A.java.codefixer", .file [98])]
    ".A.java.codefixer" ".A.java.codefixer" (by simp) rfl rfl
  have hjava := ready_java [("A.java", .file [97]), (".A.java.codefixer", .file [98])] rfl rfl
  have hjava' := ready_java [("A.java", .file [97]), (".A.java.codefixer", .file [67])] rfl rfl
  have hgone := ready_join [("A.java", .file [65])] ".A.java.codefixer" ".A.java.codefixer"
    (by simp) rfl rfl
  have hfirst : writeFile (projectOf [("A.java", .file [97]), (".A.java.codefixer", .file [98])])
      ((⟨"/repo"⟩ : Path).join ⟨".A.java.codefixer"⟩) [67] =
        (projectOf [("A.java", .file [97]), (".A.java.codefixer", .file [67])], .ok ()) :=
    (writeFile_ready hbeside [67]).trans rfl
  have hsecond : writeFile (projectOf [("A.java", .file [97]), (".A.java.codefixer", .file [67])])
      ((⟨"/repo"⟩ : Path).join ⟨"A.java"⟩) [65] = (projectOf [("A.java", .file [65])], .ok ()) :=
    (writeFile_ready hjava' [65]).trans rfl
  refine ⟨by decide +kernel, List.forall_mem_cons.2 ⟨⟨hbeside.linkless, hbeside.linkless_staging⟩,
    List.forall_mem_singleton.2 ⟨hjava.linkless, hjava.linkless_staging⟩⟩,
    projectOf [("A.java", .file [65])], 2,
    (writeFiles_of_ok hfirst _ 0).trans (writeFiles_of_ok hsecond [] 1), fun h => ?_⟩
  have hread := congrArg Except.toOption (h.1 (⟨".A.java.codefixer"⟩, [67]) List.mem_cons_self)
  cases hgone.toOption_read.symm.trans hread

/-- Of two paths to one file, the last one tells what it holds. -/
theorem misleads_writtenTwice : Misleads (projectOf [("A.java", .file [97])])
    (renewal [renewed ⟨"A.java"⟩ [65], renewed ⟨"/repo/A.java"⟩ [66]]) := by
  have hjava := ready_join [("A.java", .file [97])] "A.java" "A.java" (by simp) rfl rfl
  have hagain := ready_join [("A.java", .file [97])] "/repo/A.java" "A.java" (by simp) rfl rfl
  have hagain' := ready_join [("A.java", .file [65])] "/repo/A.java" "A.java" (by simp) rfl rfl
  have hlast := ready_join [("A.java", .file [66])] "A.java" "A.java" (by simp) rfl rfl
  have hfirst : writeFile (projectOf [("A.java", .file [97])])
      ((⟨"/repo"⟩ : Path).join ⟨"A.java"⟩) [65] = (projectOf [("A.java", .file [65])], .ok ()) :=
    (writeFile_ready hjava [65]).trans rfl
  have hsecond : writeFile (projectOf [("A.java", .file [65])])
      ((⟨"/repo"⟩ : Path).join ⟨"/repo/A.java"⟩) [66] =
        (projectOf [("A.java", .file [66])], .ok ()) :=
    (writeFile_ready hagain' [66]).trans rfl
  refine ⟨by decide +kernel, List.forall_mem_cons.2 ⟨⟨hjava.linkless, hjava.linkless_staging⟩,
    List.forall_mem_singleton.2 ⟨hagain.linkless, hagain.linkless_staging⟩⟩,
    projectOf [("A.java", .file [66])], 2,
    (writeFiles_of_ok hfirst _ 0).trans (writeFiles_of_ok hsecond [] 1), fun h => ?_⟩
  have hread := congrArg Except.toOption (h.1 (⟨"A.java"⟩, [65]) List.mem_cons_self)
  cases hlast.toOption_read.symm.trans hread

/-- A link to a file that is written reads the new content. -/
theorem misleads_linked : Misleads
    (projectOf [("A.java", .file [97]), ("notes.txt", .link "A.java")])
    (renewal [renewed ⟨"A.java"⟩ [65]]) := by
  have hjava := ready_join [("A.java", .file [97]), ("notes.txt", .link "A.java")] "A.java" "A.java"
    (by simp) rfl rfl
  refine misleads_of_ready [("A.java", .file [65]), ("notes.txt", .link "A.java")] hjava rfl
    fun h => ?_
  have hread := h.2 ⟨"/repo/notes.txt"⟩ (List.forall_mem_singleton.2 (by decide +kernel))
  have hsteps : ((⟨"/"⟩ : Path).join ⟨"/repo/notes.txt"⟩).steps =
      [.root, .name "repo", .name "notes.txt"] := by decide +kernel
  have hjava : (⟨"A.java"⟩ : Path).steps = [.name "A.java"] := by decide +kernel
  have hplace : ∀ content, (projectOf [("A.java", .file content),
      ("notes.txt", .link "A.java")]).place ⟨"/repo/notes.txt"⟩ true = .ok ["repo", "A.java"] :=
    fun content => place_linked _ hsteps (by decide +kernel) hjava rfl rfl
  rw [Disk.toOption_read (hplace [97]), Disk.toOption_read (hplace [65])] at hread
  cases hread

/-- So does another name of a file that is beside it. -/
theorem misleads_named : Misleads (projectOf [("A.java", .file [97]),
      (".A.java.codefixer", .file [98] (some 0)), ("B.txt", .file [98] (some 0))])
    (renewal [renewed ⟨"A.java"⟩ [65]]) := by
  have hjava := ready_join [("A.java", .file [97]), (".A.java.codefixer", .file [98] (some 0)),
    ("B.txt", .file [98] (some 0))] "A.java" "A.java" (by simp) rfl rfl
  refine misleads_of_ready [("A.java", .file [65] (some 0)), ("B.txt", .file [65] (some 0))] hjava
    rfl fun h => ?_
  have hread := h.2 ((⟨"/repo"⟩ : Path).join ⟨"B.txt"⟩)
    (List.forall_mem_singleton.2 (by decide +kernel))
  have hbefore := ready_join [("A.java", .file [97]), (".A.java.codefixer", .file [98] (some 0)),
    ("B.txt", .file [98] (some 0))] "B.txt" "B.txt" (by simp) rfl rfl
  have hafter := ready_join [("A.java", .file [65] (some 0)), ("B.txt", .file [65] (some 0))]
    "B.txt" "B.txt" (by simp) rfl rfl
  rw [hbefore.toOption_read, hafter.toOption_read] at hread
  cases hread

/-- **Paths do not tell what becomes of files**: different paths without links
can lead to one file, or to a file and what is beside another one, and paths
that no report names can lead there. -/
theorem not_wholeByPath :
    Misleads (projectOf [("A.java", .file [97]), (".A.java.codefixer", .file [98])])
      (renewal [renewed ⟨".A.java.codefixer"⟩ [67], renewed ⟨"A.java"⟩ [65]]) ∧
    Misleads (projectOf [("A.java", .file [97])])
      (renewal [renewed ⟨"A.java"⟩ [65], renewed ⟨"/repo/A.java"⟩ [66]]) ∧
    Misleads (projectOf [("A.java", .file [97]), ("notes.txt", .link "A.java")])
      (renewal [renewed ⟨"A.java"⟩ [65]]) ∧
    Misleads (projectOf [("A.java", .file [97]), (".A.java.codefixer", .file [98] (some 0)),
        ("B.txt", .file [98] (some 0))])
      (renewal [renewed ⟨"A.java"⟩ [65]]) :=
  ⟨misleads_besideAnother, misleads_writtenTwice, misleads_linked, misleads_named⟩

end WriteBack

end Remedy
