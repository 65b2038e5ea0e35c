import Remedy.Diff.Hunk
/-!
# Unified diffs

The steps of a diff are shown in groups, each with up to three kept lines
around its changes. A line is written with its own break.
-/

namespace Remedy

/-- The hunks of a diff and their unified text. -/
structure FileDiff where
  hunks : List DiffHunk
  unified : String
deriving Repr

namespace Diff

/-- How many kept lines are shown around a change. -/
def radius : Nat := 3

/-- The last `radius` lines of a kept step. -/
def keepLast (s : DiffStep) : DiffStep :=
  let cut := (s.oldStop - s.oldStart) - radius
  { s with oldStart := s.oldStart + cut, newStart := s.newStart + cut }

/-- The first `radius` lines of a kept step. -/
def keepFirst (s : DiffStep) : DiffStep :=
  let cut := (s.oldStop - s.oldStart) - radius
  { s with oldStop := s.oldStop - cut, newStop := s.newStop - cut }

/-- The steps with the first one cut if it keeps. -/
def trimFront : List DiffStep → List DiffStep
  | s :: rest => (if s.isKept then keepLast s else s) :: rest
  | [] => []

/-- The steps with the last one cut if it keeps. -/
def trimBack (steps : List DiffStep) : List DiffStep :=
  match steps.reverse with
  | s :: rest => ((if s.isKept then keepFirst s else s) :: rest).reverse
  | [] => []

/-- Divides steps at long kept runs. The group at hand is held in
reverse. -/
def divide (group : List DiffStep) : List DiffStep → List (List DiffStep)
  | [] => [group.reverse]
  | s :: rest =>
    if s.isKept ∧ 2 * radius < s.oldStop - s.oldStart then
      (keepFirst s :: group).reverse :: divide [keepLast s] rest
    else divide (s :: group) rest

/-- The groups that are shown: those that change something. -/
def groups (steps : List DiffStep) : List (List DiffStep) :=
  let all := divide [] (trimBack (trimFront steps))
  match all.reverse with
  | last :: before => if last.all DiffStep.isKept && last.length ≤ 1 then before.reverse else all
  | [] => []

/-- Lines as a range in a heading: the first one from one, and how many
unless it is one. An empty range stands behind the line ahead of it. -/
def rangeText (start stop : Nat) : String :=
  let count := stop - start
  if count = 1 then toString (start + 1)
  else if count = 0 then s!"{start},0"
  else s!"{start + 1},{count}"

/-- The line above a group. -/
def heading (group : List DiffStep) : String :=
  match group.head?, group.getLast? with
  | some first, some last =>
    let old := rangeText first.oldStart last.oldStop
    let new := rangeText first.newStart last.newStop
    s!"@@ -{old} +{new} @@\n"
  | _, _ => ""

/-- A line with its sign. One that has no break is told so. -/
def signedLine (sign : String) (line : String) : String :=
  let ended := match line.toList.getLast? with
    | some c => c == '\n' || c == '\r'
    | none => false
  sign ++ line ++ (if ended then "" else "\n\\ No newline at end of file\n")

/-- Lines from one number up to another, with a sign. -/
def signedLines (sign : String) (lines : Array String) (start stop : Nat) : String :=
  String.join ((lines.extract start stop).toList.map (signedLine sign))

/-- The lines of a step. -/
def stepText (lines : LinePair) (s : DiffStep) : String :=
  if s.isKept then signedLines " " lines.old s.oldStart s.oldStop
  else
    signedLines "-" lines.old s.oldStart s.oldStop ++ signedLines "+" lines.new s.newStart s.newStop

/-- The text of all groups, under the names of both files. -/
def unifiedText (name : String) (lines : LinePair) (steps : List DiffStep) : String :=
  match groups steps with
  | [] => ""
  | shown =>
    s!"--- a/{name}\n+++ b/{name}\n" ++ String.join (shown.map fun group =>
      heading group ++ String.join (group.map (stepText lines)))

/-- The diff of two texts of a file under a way to compare them. Equal texts
have no hunks. -/
def ofTextsBy (differ : Differ) (name original transformed : String) : FileDiff :=
  if original = transformed then ⟨[], ""⟩
  else
    let lines := differ.pair original transformed
    let steps := differ.steps lines
    ⟨hunksOf lines steps, unifiedText name lines steps⟩

/-- **The diff of two texts** of a file. -/
def ofTexts (name original transformed : String) : FileDiff :=
  ofTextsBy .byScript name original transformed

end Diff

end Remedy
