import Remedy.Files.Node
import Remedy.Path.Basic
/-!
# A disk

A disk answers as a file system does: a path leads through directories
and links to a place, and what cannot be done has a cause. Relative paths
start at the working directory; `..` leaves the directory that links led
into.

What the disk allows its host may still refuse, for want of a permission or
of space, and it may break off a file that it writes. What is read is refused
by the disk alone.
-/

namespace Remedy

/-- Why a file operation is refused. -/
inductive FileFault where
  | notFound
  | exists
  | notDirectory
  | isDirectory
  | notEmpty
  | tooManyLinks
  /-- Any other one, with its wording and number. -/
  | other (wording : String) (number : Nat)
deriving DecidableEq, Repr

namespace FileFault

/-- The number and the wording of a cause. -/
def describe : FileFault → String × Nat
  | .notFound => ("No such file or directory", 2)
  | .exists => ("File exists", 17)
  | .notDirectory => ("Not a directory", 20)
  | .isDirectory => ("Is a directory", 21)
  | .notEmpty => ("Directory not empty", 39)
  | .tooManyLinks => ("Too many levels of symbolic links", 40)
  | .other wording number => (wording, number)

/-- The text of a cause. -/
def message (fault : FileFault) : String :=
  let (text, number) := fault.describe
  s!"{text} (os error {number})"

end FileFault

namespace Path

/-- The steps that a path takes: its components, and one more to the
directory itself if it ends like one. -/
def steps (p : Path) : List PathComponent :=
  match p.text.toList.reverse with
  | '/' :: _ | '.' :: '/' :: _ => p.components ++ [.current]
  | _ => p.components

/-- The path of a place, from the top. -/
def ofPlace (place : List String) : Path := ofComponents (.root :: place.map .name)

end Path

/-- A file system: what stands at its top, and the working directory. -/
structure Disk where
  top : FileNode
  workingDirectory : Path
deriving Repr, Inhabited

namespace Disk

/-- The most links that a path may lead through. -/
def linkLimit : Nat := 40

/-- **The place that steps lead to.** All but the last one have to be
there. A link at the end is followed on demand. -/
def locate (disk : Disk) (followLast : Bool) :
    Nat → List String → List PathComponent → Except FileFault (List String)
  | _, here, [] => .ok here
  | links, _, .root :: rest => locate disk followLast links [] rest
  | links, here, .current :: rest => locate disk followLast links here rest
  | links, here, .parent :: rest => locate disk followLast links here.dropLast rest
  | links, here, .name name :: rest =>
    let next := here ++ [name]
    match disk.top.at? next with
    | none => if rest.isEmpty then .ok next else .error .notFound
    | some (.file ..) => if rest.isEmpty then .ok next else .error .notDirectory
    | some (.directory _) => locate disk followLast links next rest
    | some (.link target) =>
      if rest.isEmpty ∧ !followLast then .ok next
      else
        match links with
        | 0 => .error .tooManyLinks
        | links + 1 =>
          locate disk followLast links here ((⟨target⟩ : Path).steps ++ rest)
termination_by links _ steps => (links, steps.length)

/-- The place of a path, which need not be there itself. -/
def place (disk : Disk) (p : Path) (followLast : Bool) : Except FileFault (List String) :=
  if p.text.isEmpty then .error .notFound
  else disk.locate followLast linkLimit [] (disk.workingDirectory.join p).steps

/-- What stands at a path, past links. -/
def find (disk : Disk) (p : Path) : Except FileFault (List String × FileNode) := do
  let place ← disk.place p true
  match disk.top.at? place with
  | some node => return (place, node)
  | none => throw .notFound

/-- Something stands at the path. -/
def holds (disk : Disk) (p : Path) : Bool := (disk.find p).toOption.isSome

/-- The place that the path names, without links and steps back. -/
def canonical (disk : Disk) (p : Path) : Except FileFault Path :=
  (disk.find p).map fun (place, _) => Path.ofPlace place

/-- The content of a file. -/
def read (disk : Disk) (p : Path) : Except FileFault Bytes := do
  match (← disk.find p).2 with
  | .file content _ => return content
  | _ => throw .isDirectory

/-- The size that is told of a directory. -/
def directorySize : Nat := 4096

/-- The size of what stands at a path. -/
def size (disk : Disk) (p : Path) : Except FileFault Nat := do
  match (← disk.find p).2 with
  | .file content _ => return content.length
  | _ => return directorySize

/-- The place of a file that is to be written. Its directory has to be
there. -/
def target (disk : Disk) (p : Path) (followLast : Bool) : Except FileFault (List String) := do
  let place ← disk.place p followLast
  if place.isEmpty then throw .isDirectory
  match disk.top.at? place with
  | some (.directory _) => throw .isDirectory
  | _ => return place

/-- The disk with new content of the file at a place, under all its names, or
with a new file there. -/
def fill (disk : Disk) (place : List String) (content : Bytes) : Disk :=
  match disk.top.at? place with
  | some (.file _ (some number)) => { disk with top := disk.top.refill number content }
  | _ => { disk with top := disk.top.put place (.file content) }

/-- The disk with what stands at one place moved to another one. Two names of
one file both stay. -/
def move (disk : Disk) (origin goal : List String) (node : FileNode) : Disk :=
  match node, disk.top.at? goal with
  | .file _ (some number), some (.file _ (some other)) =>
    if number = other then disk
    else { disk with top := (disk.top.remove origin).put goal node }
  | _, _ => { disk with top := (disk.top.remove origin).put goal node }

end Disk

/-- A change of a disk that a host is asked for. -/
inductive FileOperation where
  | write (place : List String)
  | append (place : List String)
  | create (place : List String)
  | remove (place : List String)
  | rename (origin goal : List String)
deriving DecidableEq, Repr

/-- **What a host does not do**, although its disk allows it. -/
structure Host where
  /-- Why a change is refused before anything is done. -/
  refusal? : Disk → FileOperation → Option FileFault
  /-- How many bytes of a file are written before it is broken off, and why
  it is. -/
  breach? : Disk → List String → Bytes → Option (Nat × FileFault)

namespace Host

/-- A host that does all that its disk allows. -/
def willing : Host := ⟨fun _ _ => none, fun _ _ _ => none⟩

instance : Inhabited Host := ⟨willing⟩

/-- Asks a host for a change. -/
def allow (host : Host) (disk : Disk) (operation : FileOperation) : Except FileFault Unit :=
  match host.refusal? disk operation with
  | some fault => .error fault
  | none => .ok ()

/-- Writes the file at a place, as far as the host does. -/
def fill (host : Host) (disk : Disk) (place : List String) (content : Bytes) :
    Disk × Except FileFault Unit :=
  match host.breach? disk place content with
  | some (written, fault) => (disk.fill place (content.take written), .error fault)
  | none => (disk.fill place content, .ok ())

end Host

namespace Disk

/-- **Writes a file**, a new one or in place of the old content: what becomes
of the disk, and why it was not done. A file that is broken off keeps what was
written of it. -/
def write (disk : Disk) (p : Path) (content : Bytes) (host : Host := .willing) :
    Disk × Except FileFault Unit :=
  let asked : Except FileFault (List String) := do
    let place ← disk.target p true
    host.allow disk (.write place)
    return place
  match asked with
  | .error fault => (disk, .error fault)
  | .ok place => host.fill disk place content

/-- The path can be opened for writing at its end. -/
def canAppend (disk : Disk) (p : Path) (host : Host := .willing) : Except FileFault Unit := do
  host.allow disk (.append (← disk.target p true))

/-- Makes a new, empty file where nothing is. -/
def create (disk : Disk) (p : Path) (host : Host := .willing) : Except FileFault Disk := do
  let place ← disk.place p false
  if place.isEmpty ∨ (disk.top.at? place).isSome then throw .exists
  host.allow disk (.create place)
  return { disk with top := disk.top.put place (.file []) }

/-- Removes a file or a link. -/
def removeFile (disk : Disk) (p : Path) (host : Host := .willing) : Except FileFault Disk := do
  let place ← disk.target p false
  if (disk.top.at? place).isNone then throw .notFound
  host.allow disk (.remove place)
  return { disk with top := disk.top.remove place }

/-- Moves a file to another path, in place of any file there. -/
def rename (disk : Disk) (source destination : Path) (host : Host := .willing) :
    Except FileFault Disk := do
  let origin ← disk.place source false
  match disk.top.at? origin with
  | none => throw .notFound
  | some node =>
    let goal ← disk.target destination false
    host.allow disk (.rename origin goal)
    return disk.move origin goal node

end Disk

end Remedy
