import Remedy.Diff.Edit
/-!
# Tidying an edit script

Every deletion, and then every insertion, is moved up as far as it goes
and down again. On its way it is joined with edits of its kind, changes
places with those of the other kind, and passes lines that are kept if
they equal its own. Edits that change places keep the line numbers that
they had.
-/

namespace Remedy

namespace Diff

/-- A script around one edit: those ahead of it, the nearest first, the
edit, and those behind it. -/
structure Spot where
  ahead : List Edit
  edit : Edit
  behind : List Edit
deriving Repr

namespace Spot

/-- An edit and the rest, without the edit if it is about no line. -/
def orRest (e : Edit) (rest : List Edit) : List Edit := if e.length = 0 then rest else e :: rest

/-- How many of the last lines of a kept run equal the last new lines of an
edit. -/
def suffix (lines : LinePair) (run edit : Edit) : Nat :=
  lines.commonUp run.oldStop edit.newStop (min run.length (edit.newStop - edit.newStart))

/-- How many of the first lines of a kept run equal the first new lines of
an edit. -/
def prefixLength (lines : LinePair) (run edit : Edit) : Nat :=
  lines.commonDown run.oldStart edit.newStart (min run.length (edit.newStop - edit.newStart))

/-- The edits behind, with `n` kept lines put in front of them. -/
def keepBehind (run edit : Edit) (n : Nat) : List Edit → List Edit
  | e :: rest =>
    if e.kind = .keep then e.growFront n :: rest
    else ⟨.keep, run.oldStop - n, edit.newStop - n, n⟩ :: e :: rest
  | [] => [⟨.keep, run.oldStop - n, edit.newStop - n, n⟩]

/-- The edits ahead, the nearest first, with `n` kept lines put behind
them. -/
def keepAhead (run edit : Edit) (n : Nat) : List Edit → List Edit
  | e :: rest =>
    if e.kind = .keep then e.grow n :: rest
    else ⟨.keep, run.oldStart, edit.newStart, n⟩ :: e :: rest
  | [] => [⟨.keep, run.oldStart, edit.newStart, n⟩]

/-- The edit moved up by one obstacle, if it can be. -/
def up? (lines : LinePair) (s : Spot) : Option Spot :=
  match s.ahead with
  | [] => none
  | e :: rest =>
    if e.kind = .keep then
      let n := suffix lines e s.edit
      if 0 < n then
        some ⟨orRest (e.shrink n) rest, s.edit.moveUp n, keepBehind e s.edit n s.behind⟩
      else if e.length = 0 then some ⟨rest, s.edit, s.behind⟩
      else none
    else if e.kind = s.edit.kind then some ⟨rest, e.grow s.edit.length, s.behind⟩
    else some ⟨rest, s.edit, e :: s.behind⟩

/-- The edit moved down by one obstacle, if it can be. -/
def down? (lines : LinePair) (s : Spot) : Option Spot :=
  match s.behind with
  | [] => none
  | e :: rest =>
    if e.kind = .keep then
      let n := prefixLength lines e s.edit
      if 0 < n then
        some ⟨keepAhead e s.edit n s.ahead, s.edit.moveDown n, orRest (e.shrinkFront n) rest⟩
      else if e.length = 0 then some ⟨s.ahead, s.edit, rest⟩
      else none
    else if e.kind = s.edit.kind then some ⟨s.ahead, s.edit.grow e.length, rest⟩
    else some ⟨e :: s.ahead, s.edit, rest⟩

/-- Repeats a move while it can be made. -/
def repeated (move : Spot → Option Spot) : Nat → Spot → Spot
  | 0, s => s
  | fuel + 1, s =>
    match move s with
    | some next => repeated move fuel next
    | none => s

end Spot

/-- More moves than any edit of a script can make. -/
def moveBound (script : List Edit) : Nat :=
  (script.map fun e => e.length + 2).foldr (· + ·) 1

/-- Moves every edit of a kind as far as it goes, from the first on. -/
def settle (lines : LinePair) (kind : EditKind) (bound : Nat) :
    Nat → List Edit → List Edit → List Edit
  | 0, ahead, behind => ahead.reverse ++ behind
  | _ + 1, ahead, [] => ahead.reverse
  | fuel + 1, ahead, e :: behind =>
    if e.kind = kind then
      let high := Spot.repeated (Spot.up? lines) bound ⟨ahead, e, behind⟩
      let low := Spot.repeated (Spot.down? lines) bound high
      settle lines kind bound fuel (low.edit :: low.ahead) low.behind
    else settle lines kind bound fuel (e :: ahead) behind

/-- **A script with its deletions and then its insertions settled.** -/
def compact (lines : LinePair) (script : List Edit) : List Edit :=
  let bound := moveBound script
  let deletions := settle lines .delete bound (bound * bound) [] script
  settle lines .insert bound (bound * bound) [] deletions

end Diff

end Remedy
