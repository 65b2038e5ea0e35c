import Remedy.Command.Invocation
import Remedy.Command.Outcome
import Remedy.Config
import Remedy.Run.Summary
import Remedy.Run.WriteBack
/-!
# Fixing a project

What the command line says comes before what the configuration says. The
place of the change-set is tried before any work is done; the change-set
is written next, then, on demand, the changed files; the summary comes
last.
-/

namespace Remedy

namespace Command

/-- The selection of codemods: the configuration's, as far as nothing else
is said. -/
def FixRequest.selection (request : FixRequest) (config : Config) : Selection :=
  { byDefault := request.byDefault.getD config.rules.byDefault
    exceptions :=
      if request.exceptions.isEmpty then config.rules.exceptions else request.exceptions }

/-- The settings of the run: the configuration's, as far as nothing else
is said. -/
def FixRequest.settings (request : FixRequest) (config : Config) : RunSettings :=
  let told := config.settings
  { told with
    includes := if request.includes.isEmpty then told.includes else request.includes
    excludes := if request.excludes.isEmpty then told.excludes else request.excludes
    threads := request.threads.getD told.threads }

/-- **Tries whether a file can be written**: what becomes of the disk, and why
it cannot. One that is not there yet is made and removed again; it stays if it
cannot be removed. -/
def tryWriting (disk : Disk) (output : Path) (host : Host := .willing) :
    Disk × Except FileFault Unit :=
  if disk.holds output then (disk, disk.canAppend output host)
  else
    match disk.create output host with
    | .error fault => (disk, .error fault)
    | .ok made =>
      match made.removeFile output host with
      | .error fault => (made, .error fault)
      | .ok removed => (removed, .ok ())

/-- Writes the change-set and, on demand, the changed files, and prints
the summary. -/
def finish (disk : Disk) (request : FixRequest) (verbose : Bool) (report : Report)
    (host : Host := .willing) : Outcome :=
  match disk.write request.output (Utf8.encode (request.format.write report)) host with
  | (disk, .error fault) => .failed disk (.unwritableOutput request.output fault.message)
  | (disk, .ok ()) =>
    let summary (written : Option Nat) := Summary.text verbose report request.output written
    if request.write then
      match WriteBack.ofReport disk report host with
      | (disk, .ok count) => .done disk (summary (some count))
      | (disk, .error e) => .failed disk e
    else .done disk (summary none)

/-- **Fixes a project.** -/
def fix (disk : Disk) (catalog : Catalog) (clock : RunClock) (cancellation : Cancellation)
    (request : FixRequest) (verbose : Bool) (host : Host := .willing)
    (readers : Readers := .standard) : Outcome :=
  match Config.load disk request.project with
  | .error e => .failed disk e
  | .ok config =>
    match tryWriting disk request.output host with
    | (disk, .error fault) => .failed disk (.unwritableOutput request.output fault.message)
    | (disk, .ok ()) =>
      match runProject disk request.project request.reports (request.selection config) catalog
          (request.settings config) clock cancellation readers with
      | .error e => .failed disk e
      | .ok (report, _) => finish disk request verbose report host

end Command

end Remedy
