import Remedy.Text.Bytes
/-!
# Files, links and directories

A directory holds entries by name. A place in the tree is the list of
names that leads to it from the top; links are not followed here. A file
that stands under several names has a number, which is the same at each of
them.
-/

namespace Remedy

/-- What stands at a place of a file system. A file of one name needs no
number. -/
inductive FileNode where
  | file (content : Bytes) (number : Option Nat := none)
  | link (target : String)
  | directory (entries : List (String × FileNode))
deriving Repr, Inhabited

namespace FileNode

/-- The entries of a directory. -/
def entries : FileNode → List (String × FileNode)
  | .directory es => es
  | _ => []

/-- The node is a directory. -/
def isDirectory : FileNode → Bool
  | .directory _ => true
  | _ => false

/-- What stands at a place below a node. -/
def at? (node : FileNode) : List String → Option FileNode
  | [] => some node
  | name :: rest =>
    match node.entries.lookup name with
    | some child => child.at? rest
    | none => none

/-- Changes the entry of a name, or makes or removes it. No entry of a name
that is removed is left. -/
def alterEntry (name : String) (change : Option FileNode → Option FileNode) :
    List (String × FileNode) → List (String × FileNode)
  | [] => ((change none).map (name, ·)).toList
  | (n, child) :: rest =>
    if n = name then
      match change (some child) with
      | some new => (name, new) :: rest
      | none => rest.filter fun entry => entry.1 ≠ name
    else (n, child) :: alterEntry name change rest

/-- Changes what stands at a place, or makes or removes it. The directory
of the place has to be there, otherwise nothing changes. -/
def alter (change : Option FileNode → Option FileNode) : List String → FileNode → FileNode
  | [], node => node
  | [name], .directory es => .directory (alterEntry name change es)
  | name :: rest, .directory es =>
    .directory (alterEntry name (Option.map (alter change rest)) es)
  | _, node => node

/-- Puts a node at a place. -/
def put (node : FileNode) (place : List String) (new : FileNode) : FileNode :=
  alter (fun _ => some new) place node

/-- Removes what stands at a place. -/
def remove (node : FileNode) (place : List String) : FileNode := alter (fun _ => none) place node

mutual

/-- Gives a file of several names new content, at all of them. -/
def refill (number : Nat) (content : Bytes) : FileNode → FileNode
  | .file old own => .file (if own = some number then content else old) own
  | .link target => .link target
  | .directory es => .directory (refillEntries number content es)

/-- Gives it new content in the entries of a directory. -/
def refillEntries (number : Nat) (content : Bytes) :
    List (String × FileNode) → List (String × FileNode)
  | [] => []
  | (name, child) :: rest =>
    (name, child.refill number content) :: refillEntries number content rest

end

/-- Makes a directory wherever a place leads past one that is missing. -/
def makeDirectories (node : FileNode) (place : List String) : FileNode :=
  (List.range place.length).foldl (fun tree n =>
    let part := place.take (n + 1)
    match tree.at? part with
    | some _ => tree
    | none => tree.put part (.directory [])) node

end FileNode

end Remedy
