import Remedy.Java.Tree
/-!
# Moving about in a tree

A `Cursor` is a tree with the way down to it, so that it can move to the
first child, the next sibling and the parent. A `Walk` visits a tree in
pre-order with these moves alone: it counts how deep it stands below its
start, climbs only while that count is positive, and so never leaves the
tree it started from.
-/

namespace Remedy

namespace Java

/-- One step of the way down: the parent, less the child below. -/
structure Crumb where
  kind : Kind
  span : Span
  before : List (Option Role × Tree)
  role : Option Role
  after : List (Option Role × Tree)
deriving Repr

/-- A tree and the way down to it, the nearest step first. -/
structure Cursor where
  focus : Tree
  trail : List Crumb
deriving Repr

namespace Cursor

/-- The cursor at the root of a tree. -/
def ofTree (t : Tree) : Cursor := ⟨t, []⟩

/-- The cursor at the first child. -/
def firstChild? (c : Cursor) : Option Cursor :=
  match c.focus with
  | .node _ _ [] => none
  | .node k s ((role, t) :: rest) => some ⟨t, ⟨k, s, [], role, rest⟩ :: c.trail⟩

/-- The cursor at the next sibling. -/
def nextSibling? (c : Cursor) : Option Cursor :=
  match c.trail with
  | ⟨k, s, before, role, (nextRole, t) :: rest⟩ :: trail =>
    some ⟨t, ⟨k, s, (role, c.focus) :: before, nextRole, rest⟩ :: trail⟩
  | _ => none

/-- The cursor at the parent. -/
def parent? (c : Cursor) : Option Cursor :=
  match c.trail with
  | ⟨k, s, before, role, after⟩ :: trail =>
    some ⟨.node k s (before.reverse ++ (role, c.focus) :: after), trail⟩
  | [] => none

/-- The kind of the parent. -/
def parentKind? (c : Cursor) : Option Kind := c.trail.head?.map Crumb.kind

/-- The nearest tree of a kind around the cursor, or at it. -/
def enclosing? (kind : String) (fuel : Nat) (c : Cursor) : Option Tree :=
  if c.focus.kind.name = kind then some c.focus
  else
    match fuel, c.parent? with
    | fuel + 1, some p => p.enclosing? kind fuel
    | _, _ => none

/-- The cursors at the children, from the one at hand on. -/
def siblings (c : Cursor) : Nat → List Cursor
  | 0 => [c]
  | fuel + 1 =>
    match c.nextSibling? with
    | some next => c :: next.siblings fuel
    | none => [c]

/-- The cursors at the children. -/
def children (c : Cursor) : List Cursor :=
  match c.firstChild? with
  | some first => first.siblings c.focus.parts.length
  | none => []

end Cursor

namespace Tree

mutual

/-- How many trees there are, the tree itself included. -/
def size : Tree → Nat
  | .node _ _ parts => sizeParts parts + 1

/-- How many trees there are among children. -/
def sizeParts : List (Option Role × Tree) → Nat
  | [] => 0
  | (_, t) :: rest => t.size + sizeParts rest

end

end Tree

/-- A visit of all trees below a start: where it stands, how deep below
the start, and whether it is over. -/
structure Walk where
  cursor : Cursor
  depth : Nat
  finished : Bool
deriving Repr

namespace Walk

/-- The visit of the tree at a cursor. -/
def ofCursor (c : Cursor) : Walk := ⟨c, 0, false⟩

/-- The next sibling, of the cursor or of the nearest tree above it that
has one, at most `depth` levels up. -/
def climb (c : Cursor) : Nat → Option (Cursor × Nat)
  | 0 => none
  | depth + 1 =>
    match c.nextSibling? with
    | some next => some (next, depth + 1)
    | none =>
      match c.parent? with
      | some p => climb p depth
      | none => none

/-- **One step of the visit**: the tree at hand and the visit that is left,
or nothing when the visit is over. -/
def next? (w : Walk) : Option (Cursor × Walk) :=
  if w.finished then none
  else
    match w.cursor.firstChild? with
    | some child => some (w.cursor, ⟨child, w.depth + 1, false⟩)
    | none =>
      match climb w.cursor w.depth with
      | some (c, depth) => some (w.cursor, ⟨c, depth, false⟩)
      | none => some (w.cursor, ⟨w.cursor, 0, true⟩)

/-- The cursors that a visit comes by, for a number of steps at most. -/
def visit (w : Walk) : Nat → List Cursor
  | 0 => []
  | fuel + 1 =>
    match w.next? with
    | some (c, rest) => c :: rest.visit fuel
    | none => []

end Walk

/-- **The cursor and all cursors below it**, each before those below it. -/
def Cursor.descendants (c : Cursor) : List Cursor :=
  (Walk.ofCursor c).visit c.focus.size

end Java

end Remedy
