import Remedy.Diff.Edit
/-!
# Finding an edit script

Two ranges of lines lose what they have in common at both ends. What is
left is divided at a point that both a search from the front and one from
the back have reached, and the two parts are compared on their own. The
tables of the two searches are handed on from one part to the next.
-/

namespace Remedy

namespace Diff

/-- How far a search has come on each diagonal. -/
structure Frontier where
  offset : Nat
  cells : Array Nat
deriving Repr

namespace Frontier

/-- The place of a diagonal in the table. -/
def index (f : Frontier) (k : Int) : Nat := (k + f.offset).toNat

/-- How far the search has come on a diagonal. -/
def get (f : Frontier) (k : Int) : Nat := f.cells.getD (f.index k) 0

/-- The search has come to `x` on a diagonal. -/
def set (f : Frontier) (k : Int) (x : Nat) : Frontier :=
  { f with cells := f.cells.setIfInBounds (f.index k) x }

/-- Where the next step on a diagonal starts: beside the further one of
its neighbours. -/
def step (f : Frontier) (d k : Int) : Nat :=
  if k = -d ∨ (k ≠ d ∧ f.get (k - 1) < f.get (k + 1)) then f.get (k + 1)
  else f.get (k - 1) + 1

end Frontier

/-- A range of old lines and one of new lines. -/
structure Region where
  oldStart : Nat
  oldStop : Nat
  newStart : Nat
  newStop : Nat
deriving Repr

namespace Region

/-- The number of old lines. -/
def oldLength (r : Region) : Nat := r.oldStop - r.oldStart

/-- The number of new lines. -/
def newLength (r : Region) : Nat := r.newStop - r.newStart

/-- How far the diagonals of the two ends are apart. -/
def delta (r : Region) : Int := (r.oldLength : Int) - r.newLength

/-- How many of the first lines are equal. -/
def front (lines : LinePair) (r : Region) : Nat :=
  lines.commonDown r.oldStart r.newStart (min r.oldLength r.newLength)

/-- How many of the last lines are equal, without the first ones. -/
def back (lines : LinePair) (r : Region) : Nat :=
  lines.commonUp r.oldStop r.newStop
    (min (r.oldLength - r.front lines) (r.newLength - r.front lines))

/-- What equal lines at both ends leave. -/
def inner (lines : LinePair) (r : Region) : Region :=
  ⟨r.oldStart + r.front lines, r.oldStop - r.back lines,
    r.newStart + r.front lines, r.newStop - r.back lines⟩

end Region

/-- The two searches, and the point where they met. -/
structure Search where
  forward : Frontier
  backward : Frontier
  meeting : Option (Nat × Nat)
deriving Repr

/-- A search of `d` edits from the front, on diagonal `k`. -/
def forwardStep (lines : LinePair) (r : Region) (d : Int) (s : Search) (k : Int) : Search :=
  if s.meeting.isSome then s
  else
    let x := s.forward.step d k
    let y : Int := x - k
    let room := min (r.oldLength - x) (r.newLength - y.toNat)
    let advance :=
      if y < 0 then 0 else lines.commonDown (r.oldStart + x) (r.newStart + y.toNat) room
    let forward := s.forward.set k (x + advance)
    let far := k - r.delta
    let met := r.delta % 2 = 1 ∧ far.natAbs + 1 ≤ d ∧
      r.oldLength ≤ x + advance + s.backward.get (-far)
    { s with forward := forward
             meeting := if met then some (r.oldStart + x, (r.newStart + y).toNat) else none }

/-- A search of `d` edits from the back, on diagonal `k`. -/
def backwardStep (lines : LinePair) (r : Region) (d : Int) (s : Search) (k : Int) : Search :=
  if s.meeting.isSome then s
  else
    let x := s.backward.step d k
    let y : Int := x - k
    let room := min (r.oldLength - x) (r.newLength - y.toNat)
    let advance := if y < 0 then 0 else lines.commonUp (r.oldStop - x) (r.newStop - y.toNat) room
    let backward := s.backward.set k (x + advance)
    let far := k - r.delta
    let met := r.delta % 2 = 0 ∧ far.natAbs ≤ d ∧
      r.oldLength ≤ x + advance + s.forward.get (-far)
    { s with backward := backward
             meeting := if met then some (r.oldStop - (x + advance),
               (r.newStop - (y + advance)).toNat) else none }

/-- The diagonals of `d` edits, from the highest down. -/
def diagonals (d : Nat) : List Int := (List.range (d + 1)).map fun i => (d : Int) - 2 * (i : Nat)

/-- The searches with `d` edits and more, as long as they have not met. -/
def searchFrom (lines : LinePair) (r : Region) (d : Nat) (s : Search) : Nat → Search
  | 0 => s
  | fuel + 1 =>
    let s := (diagonals d).foldl (forwardStep lines r d) s
    let s := (diagonals d).foldl (backwardStep lines r d) s
    if s.meeting.isSome then s else searchFrom lines r (d + 1) s fuel

/-- The most edits that a search has to try. -/
def searchDepth (oldLength newLength : Nat) : Nat := (oldLength + newLength + 1) / 2 + 1

/-- Both searches of a region, from the start, over the tables of earlier
ones. -/
def search (lines : LinePair) (r : Region) (forward backward : Frontier) : Search :=
  searchFrom lines r 0 ⟨forward.set 1 0, backward.set 1 0, none⟩
    (searchDepth r.oldLength r.newLength)

/-- An edit that keeps lines, if there are any. -/
def kept (oldStart newStart length : Nat) : List Edit :=
  if length = 0 then [] else [⟨.keep, oldStart, newStart, length⟩]

/-- The edits that replace all of a region. -/
def replaced (r : Region) : List Edit :=
  [⟨.delete, r.oldStart, r.newStart, r.oldLength⟩, ⟨.insert, r.oldStart, r.newStart, r.newLength⟩]

/-- **The script for a region.** The fuel bounds the depth of division. -/
def conquer (lines : LinePair) :
    Nat → Region → Frontier → Frontier → List Edit × Frontier × Frontier
  | 0, r, f, b => (replaced r, f, b)
  | fuel + 1, r, f, b =>
    let inner := r.inner lines
    let (middle, f, b) :=
      if inner.oldLength = 0 ∧ inner.newLength = 0 then ([], f, b)
      else if inner.newLength = 0 then
        ([⟨.delete, inner.oldStart, inner.newStart, inner.oldLength⟩], f, b)
      else if inner.oldLength = 0 then
        ([⟨.insert, inner.oldStart, inner.newStart, inner.newLength⟩], f, b)
      else
        let s := search lines inner f b
        match s.meeting with
        | some (x, y) =>
          let (first, f, b) := conquer lines fuel ⟨inner.oldStart, x, inner.newStart, y⟩
            s.forward s.backward
          let (second, f, b) := conquer lines fuel ⟨x, inner.oldStop, y, inner.newStop⟩ f b
          (first ++ second, f, b)
        | none => (replaced inner, s.forward, s.backward)
    (kept r.oldStart r.newStart (r.front lines) ++ middle ++
      kept inner.oldStop inner.newStop (r.back lines), f, b)

/-- The script from all old lines to all new ones. -/
def script (lines : LinePair) : List Edit :=
  let depth := searchDepth lines.old.size lines.new.size
  let empty : Frontier := ⟨depth, Array.replicate (2 * depth) 0⟩
  (conquer lines (lines.old.size + lines.new.size + 1) ⟨0, lines.old.size, 0, lines.new.size⟩
    empty empty).1

end Diff

end Remedy
