import Remedy.Files.Disk
import Remedy.Source.Language
/-!
# Source files of a project

All regular files below a root whose language is known. What is hidden is
left out with all below it, and so are the directories of build output and
of installed packages. Links are not followed.
-/

namespace Remedy

namespace Sources

/-- The directories that hold no sources of the project. -/
def skippedDirectories : List String := ["node_modules", "target", "build", "out", "__pycache__"]

/-- A name that starts with a point. -/
def isHidden (name : String) : Bool := name.toList.head? == some '.'

/-- The path of names below a root. -/
def relative (names : List String) : Path := Path.ofComponents (names.map .name)

mutual

/-- The source files at and below an entry that stands under given
names. -/
def ofEntry (above : List String) (name : String) : FileNode → List (List String)
  | .file .. =>
    let place := above ++ [name]
    if !isHidden name && (Language.ofPath? (relative place)).isSome then [place] else []
  | .link _ => []
  | .directory entries =>
    if isHidden name || skippedDirectories.contains name then []
    else ofEntries (above ++ [name]) entries

/-- The source files at and below entries that stand under given names. -/
def ofEntries (above : List String) : List (String × FileNode) → List (List String)
  | [] => []
  | (name, node) :: rest => ofEntry above name node ++ ofEntries above rest

end

/-- **The source files below a root**, in the order of their paths. -/
def below (root : FileNode) : List Path :=
  ((ofEntries [] root.entries).map relative).mergeSort fun p q => (p.order q).isLE

end Sources

end Remedy
