import Remedy.Files.Sources
import Remedy.Run.Error
import Remedy.Source.Unit
/-!
# A project on a disk

A project is a directory. Its source files are found, read with a bound on
their size, and made units.
-/

namespace Remedy

/-- A project: the place of its directory, without links. -/
structure Project where
  root : Path
  node : FileNode
deriving Repr

/-- A source file that was read, or why it could not be. -/
structure RawSource where
  path : Path
  content : Except ParseError Bytes
deriving Repr

namespace Project

/-- **The project at a path**, which has to be a directory. -/
def ofPath (disk : Disk) (path : Path) : Except RunError Project :=
  match disk.find path with
  | .error fault => .error (.unreadableRoot path fault.message)
  | .ok (place, node) =>
    if node.isDirectory then .ok ⟨Path.ofPlace place, node⟩
    else .error (.unreadableRoot path "not a directory")

/-- The source files of the project that a filter lets in. -/
def discover (project : Project) (filter : PathFilter) : List Path :=
  (Sources.below project.node).filter filter.allowsFile

/-- Reads one file below a root, unless it is larger than `limit` bytes. -/
def readSource (disk : Disk) (root : Path) (limit : Nat) (path : Path) : RawSource :=
  let full := root.join path
  let io (fault : FileFault) : ParseError := .io fault.message
  ⟨path, do
    let size ← (disk.size full).mapError io
    if limit < size then throw (.tooLarge size limit)
    (disk.read full).mapError io⟩

/-- Reads files below a root, in their order. -/
def readSources (disk : Disk) (root : Path) (limit : Nat) (paths : List Path) : List RawSource :=
  paths.map (readSource disk root limit)

/-- The unit of a file that was read, if its language is known. -/
def unit? (raw : RawSource) (readers : Readers := .standard) : Option SourceUnit :=
  (Language.ofPath? raw.path).map fun language =>
    match raw.content with
    | .ok bytes => SourceUnit.ofBytes raw.path language bytes readers
    | .error error => SourceUnit.failed raw.path language error

/-- The units of files that were read. -/
def units (sources : List RawSource) (readers : Readers := .standard) : List SourceUnit :=
  sources.filterMap (unit? · readers)

end Project

end Remedy
