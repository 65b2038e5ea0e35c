import Remedy.Files.Disk
/-!
# A disk from its files, and back

A disk is made of files with their paths, and two disks are told apart by
the files in which they differ.
-/

namespace Remedy

namespace FileNode

mutual

/-- The files below a node, with their places. -/
def files (place : List String) : FileNode → List (List String × Bytes)
  | .file content _ => [(place, content)]
  | .link _ => []
  | .directory entries => filesAmong place entries

/-- The files below the entries of a directory. -/
def filesAmong (place : List String) : List (String × FileNode) → List (List String × Bytes)
  | [] => []
  | (name, child) :: rest => child.files (place ++ [name]) ++ filesAmong place rest

end

end FileNode

namespace Disk

/-- The place of a path, `..` and links apart. -/
def plainPlace (disk : Disk) (p : Path) : List String :=
  (disk.workingDirectory.join p).components.filterMap fun
    | .name name => some name
    | _ => none

/-- Puts a node at a path, in directories that are made where missing. -/
def provide (disk : Disk) (p : Path) (node : FileNode) : Disk :=
  let place := disk.plainPlace p
  { disk with top := (disk.top.makeDirectories place.dropLast).put place node }

/-- **The disk that holds given files** below a working directory. -/
def ofFiles (workingDirectory : Path) (files : List (Path × Bytes)) : Disk :=
  let empty : Disk := ⟨.directory [], workingDirectory⟩
  files.foldl (fun disk (p, content) => disk.provide p (.file content))
    (empty.provide workingDirectory (.directory []))

/-- The files that are new or other than before, and those that are gone. -/
def changes (before after : Disk) : List (Path × Bytes) × List Path :=
  let old := before.top.files []
  let new := after.top.files []
  ((new.filter fun (place, content) => old.lookup place ≠ some content).map
      fun (place, content) => (Path.ofPlace place, content),
    (old.filter fun (place, _) => (new.lookup place).isNone).map
      fun (place, _) => Path.ofPlace place)

end Disk

end Remedy
