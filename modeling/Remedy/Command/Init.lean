import Remedy.Codemod.Basic
import Remedy.Command.Invocation
import Remedy.Command.Outcome
import Remedy.Config
/-!
# Making a configuration

The file is written with every default and a comment on each, and names
the codemods of the catalog. A file that is there stays, unless it is to
be overwritten.
-/

namespace Remedy

namespace Command

/-- The lines of a new configuration. -/
def configLines (catalog : Catalog) : List String :=
  [ "# codefixer configuration",
    "",
    "rules:",
    "  # Whether codemods run by default (enabled, disabled)",
    "  default: enabled",
    "  # Codemods that invert the default",
    "  exceptions: []" ] ++
  catalog.map (fun c => s!"    # - {c.id}  # {c.summary}") ++
  [ "",
    "paths:",
    "  # Globs or path prefixes; append :<line> to target a single line",
    "  include: []",
    "  exclude:",
    "    - \"**/generated/**\"",
    "",
    "limits:",
    "  # Per-file read and parse deadline",
    "  file_timeout_ms: 5000",
    "  # Larger files are reported and left alone",
    "  max_file_bytes: 2097152",
    "",
    "# Worker threads, 0 = one per core",
    "threads: 0" ]

/-- The content of a new configuration. -/
def configText (catalog : Catalog) : String :=
  String.join ((configLines catalog).map (· ++ "\n"))

/-- **Makes the configuration of a project.** -/
def init (disk : Disk) (catalog : Catalog) (request : InitRequest)
    (host : Host := .willing) : Outcome :=
  match disk.canonical request.project with
  | .error fault => .faulty disk fault
  | .ok root =>
    let file := root.join ⟨Config.fileName⟩
    if disk.holds file ∧ !request.force then
      .done disk s!"  SKIP {Config.fileName} already exists. Use --force to overwrite.\n"
    else
      match disk.write file (Utf8.encode (configText catalog)) host with
      | (disk, .error fault) => .faulty disk fault
      | (disk, .ok ()) =>
        .done disk (s!"  DONE {Config.fileName} created\n" ++
          s!"  Edit {file.text} to choose codemods and paths.\n")

end Command

end Remedy
