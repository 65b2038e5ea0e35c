import Remedy.Files.Disk
import Remedy.Run.Error
import Remedy.Run.Report
/-!
# Writing changed files

A changed file is written under a name beside it and then moved into its
place, so that the disk holds it either as it was or as it is to be. The
first fault ends the writing; what was moved stays.
-/

namespace Remedy

namespace WriteBack

/-- The name beside a file of a given name. -/
def stagingName (name : String) : String := s!".{name}.codefixer"

/-- The path beside a file under which its new content is written first. A
path that ends in no name gets one. -/
def staging (target : Path) : Path :=
  match target.fileName? with
  | some name => ((target.parent?).getD ⟨""⟩).join ⟨stagingName name⟩
  | none => target.join ⟨stagingName ""⟩

/-- Writes one file: what becomes of the disk, and why it was not done. -/
def writeFile (disk : Disk) (target : Path) (content : Bytes) (host : Host := .willing) :
    Disk × Except RunError Unit :=
  let beside := staging target
  match disk.write beside content host with
  | (disk, .error fault) =>
    (disk, .error (.failed [s!"failed to write {beside.text}", fault.message]))
  | (staged, .ok ()) =>
    match staged.rename beside target host with
    | .error fault =>
      (staged, .error (.failed [s!"failed to replace {target.text}", fault.message]))
    | .ok replaced => (replaced, .ok ())

/-- Writes files one after the other, and counts them. -/
def writeFiles (disk : Disk) (root : Path) (files : List (Path × Bytes)) (count : Nat)
    (host : Host := .willing) : Disk × Except RunError Nat :=
  match files with
  | [] => (disk, .ok count)
  | (path, content) :: rest =>
    match writeFile disk (root.join path) content host with
    | (disk, .ok ()) => writeFiles disk root rest (count + 1) host
    | (disk, .error e) => (disk, .error e)

/-- **Writes the changed files of a report** below its root: the disk
afterwards, and how many files were written or why not all. -/
def ofReport (disk : Disk) (report : Report) (host : Host := .willing) :
    Disk × Except RunError Nat :=
  writeFiles disk report.run.root
    (report.changedFiles.filterMap fun f => f.encoded.map (f.path, ·)) 0 host

end WriteBack

end Remedy
