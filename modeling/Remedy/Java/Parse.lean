import Remedy.Java.Grammar.Declarations
/-!
# Reading a Java text

A text is read as a whole or refused. A refusal says where: at the first
token that no reading gets past, or at a sign that is missing before it.
Comments are put back into the finished tree.
-/

namespace Remedy

namespace Java

/-- Why a text is refused: the tokens that no reading gets past, or a sign
that would have let the reading go on. -/
inductive ParseFault where
  | unexpected (offset : Nat) (text : String)
  | missing (offset : Nat) (sign : String)
deriving DecidableEq, Repr

namespace ParseFault

/-- Where the fault shows. -/
def offset : ParseFault → Nat
  | .unexpected o _ => o
  | .missing o _ => o

/-- How many characters of an unexpected text are shown. -/
def shownLength : Nat := 24

/-- The wording of a fault. Of an unexpected text the first characters of
its first line are shown. -/
def message : ParseFault → String
  | .unexpected _ text =>
    let shown := (text.toList.take shownLength).takeWhile fun c => c ≠ '\n' ∧ c ≠ '\r'
    s!"unexpected `{String.ofList shown}`"
  | .missing _ sign => s!"missing `{sign}`"

end ParseFault

namespace Tree

mutual

/-- Puts a comment into the innermost tree that has children on both sides
of it. -/
def insertComment (comment : Tree) : Tree → Tree
  | .node k s parts => .node k s (insertCommentParts comment parts)

/-- Puts a comment among children, or into the child around it. -/
def insertCommentParts (comment : Tree) : List (Option Role × Tree) → List (Option Role × Tree)
  | [] => [(none, comment)]
  | (role, t) :: rest =>
    if comment.span.stop ≤ t.span.start then (none, comment) :: (role, t) :: rest
    else if comment.span.start < t.span.stop then (role, insertComment comment t) :: rest
    else (role, t) :: insertCommentParts comment rest

end

end Tree

/-- The leaf of a comment. -/
def commentTree (t : Token) : Tree :=
  .node (if t.kind = .lineComment then .lineComment else .blockComment) t.span []

/-- Reads the program off tokens that are no comments. -/
def runProgram (tokens : List Token) : Attempt :=
  run grammar (100 * (tokens.length + 20)) Grammar.program tokens

/-- The tree of a program, if all tokens were read. -/
def programOf? (a : Attempt) : Option Tree :=
  match a.result with
  | some ([(_, tree)], [last]) => if last.kind = .endOfText then some tree else none
  | _ => none

/-- The signs whose absence is looked for. -/
def closingSigns : List String := [";", ")", "\x7d", "]"]

/-- Tokens with one more sign ahead of the token that starts at `offset`. -/
def insertSign (sign : String) (offset : Nat) (tokens : List Token) : List Token × Nat :=
  let before := tokens.takeWhile fun t => t.span.start < offset
  let place := (before.getLast?.map fun t => t.span.stop).getD 0
  (before ++ ⟨.sign, sign, ⟨place, place⟩⟩ :: tokens.drop before.length, place)

/-- Whether one more sign lets the reading get past the token at
`offset`. -/
def helps (sign : String) (offset : Nat) (tokens : List Token) : Bool :=
  let a := runProgram (insertSign sign offset tokens).1
  (programOf? a).isSome || offset < a.reach

/-- The fault of tokens that reading did not get past `reach`. -/
def faultAt (tokens : List Token) (reach : Nat) : ParseFault :=
  match closingSigns.find? fun sign => helps sign reach tokens with
  | some sign => .missing (insertSign sign reach tokens).2 sign
  | none =>
    let text := (tokens.find? fun t => t.span.start = reach).map Token.text
    .unexpected reach (text.getD "")

/-- The root of a program: it covers the text from its first token or
comment to its end. -/
def rooted (tree : Tree) (start stop : Nat) : Tree := .node .program ⟨start, stop⟩ tree.parts

/-- **The syntax tree of a text**, or why it has none. -/
def parse (text : String) : Except ParseFault Tree :=
  let all := tokens text
  let plain := all.filter fun t => !t.isComment
  let attempt := runProgram plain
  match programOf? attempt with
  | some tree =>
    let comments := (all.filter Token.isComment).map commentTree
    let whole := comments.foldl (fun t c => Tree.insertComment c t) tree
    .ok (rooted whole (positionOf all) text.utf8ByteSize)
  | none => .error (faultAt plain attempt.reach)

end Java

end Remedy
