import Remedy.Java.Token
import Remedy.Java.Tree
/-!
# Rules over tokens

A `Pattern` says which tokens make up a piece of syntax and what tree
comes of them. A choice takes the first alternative that fits. `nested`
reads an operand and then, as long as one fits, a continuation that makes
the tree so far the first child of a new one: operators, calls and
qualified names grow to the left that way.

`run` interprets a pattern. It also tells how far into the text any
attempt came, which is where a text that does not fit is at fault.
-/

namespace Remedy

namespace Java

/-- What tokens to read and what tree to make. -/
inductive Pattern (Rule : Type) where
  | token (text : String)
  | adjacent (texts : List String)
  | closeAngle
  | leaf (kind : Kind) (accepts : Token → Bool)
  | seq (parts : List (Pattern Rule))
  | choice (alternatives : List (Pattern Rule))
  | many (p : Pattern Rule)
  | ahead (p : Pattern Rule)
  | notAhead (p : Pattern Rule)
  | only (kinds : List Kind) (p : Pattern Rule)
  | node (kind : Kind) (p : Pattern Rule)
  | as (role : Role) (p : Pattern Rule)
  | nested (first : Pattern Rule) (steps : List (Kind × List Kind × Option Role × Pattern Rule))
  | rule (r : Rule)

namespace Pattern

variable {Rule : Type}

/-- A pattern or nothing. -/
def opt (p : Pattern Rule) : Pattern Rule := .choice [p, .seq []]

/-- One or more. -/
def many1 (p : Pattern Rule) : Pattern Rule := .seq [p, .many p]

/-- One or more with a separator between them. -/
def sepBy1 (p : Pattern Rule) (separator : String) : Pattern Rule :=
  .seq [p, .many (.seq [.token separator, p])]

/-- Any number with a separator between them. -/
def sepBy (p : Pattern Rule) (separator : String) : Pattern Rule := opt (sepBy1 p separator)

/-- One of several tokens. -/
def oneOf (texts : List String) : Pattern Rule := .choice (texts.map .token)

/-- A word outside a list, as a leaf. -/
def wordExcept (kind : Kind) (reserved : List String) : Pattern Rule :=
  .leaf kind fun t => t.kind == .word && !reserved.contains t.text

/-- A given word, as a leaf of a named kind. -/
def wordAs (kind : Kind) (text : String) : Pattern Rule :=
  .leaf kind fun t => t.kind == .word && t.text == text

end Pattern

/-- Trees with their roles, in order. -/
abbrev Parts := List (Option Role × Tree)

/-- What an attempt came to: how far it looked, and, if it fitted, the
trees and the tokens that follow. -/
structure Attempt where
  reach : Nat
  result : Option (Parts × List Token)

namespace Attempt

/-- An attempt that fitted. -/
def fits (reach : Nat) (parts : Parts) (rest : List Token) : Attempt := ⟨reach, some (parts, rest)⟩

/-- An attempt that did not fit. -/
def fails (reach : Nat) : Attempt := ⟨reach, none⟩

/-- The same with a reach that counts an earlier attempt too. -/
def after (a : Attempt) (reach : Nat) : Attempt := ⟨max reach a.reach, a.result⟩

end Attempt

/-- Where the next token starts. -/
def positionOf : List Token → Nat
  | t :: _ => t.span.start
  | [] => 0

/-- The kind of a leaf made of a token: keywords and signs stand for
themselves. -/
def signTree (t : Token) : Tree := .node (.sign t.text) t.span []

/-- The token stands for itself: a word or a sign. -/
def Token.isPlain (t : Token) : Bool := t.kind == .word || t.kind == .sign

/-- Tokens of given texts with nothing between them, as one sign. -/
def adjacentTokens (texts : List String) (start stop : Nat) (done : String) :
    List Token → Option (Tree × List Token) :=
  match texts with
  | [] => fun rest => some (.node (.sign done) ⟨start, stop⟩ [], rest)
  | text :: texts => fun
    | t :: rest =>
      if t.isPlain && t.text == text && t.span.start == stop then
        adjacentTokens texts start t.span.stop (done ++ text) rest
      else none
    | [] => none

/-- Takes one `>` off a token that starts with it. -/
def takeAngle : List Token → Option (Tree × List Token)
  | t :: rest =>
    match t.kind, t.text.toList with
    | .sign, '>' :: more =>
      let middle := t.span.start + 1
      let leaf := Tree.node (.sign ">") ⟨t.span.start, middle⟩ []
      if more.isEmpty then some (leaf, rest)
      else some (leaf, ⟨.sign, String.ofList more, ⟨middle, t.span.stop⟩⟩ :: rest)
    | _, _ => none
  | [] => none

/-- A tree over its parts. One without parts stands at `position`. -/
def treeOver (kind : Kind) (parts : Parts) (position : Nat) : Tree :=
  match parts, parts.getLast? with
  | (_, first) :: _, some (_, last) => .node kind ⟨first.span.start, last.span.stop⟩ parts
  | _, _ => .node kind ⟨position, position⟩ []

/-- Gives a role to the parts that have none. -/
def label (role : Role) (parts : Parts) : Parts :=
  parts.map fun (r, t) => (some (r.getD role), t)

/-- An attempt to read one token as a leaf. -/
def attemptLeaf (kind : Kind) (accepts : Token → Bool) (input : List Token) : Attempt :=
  match input with
  | t :: rest =>
    if accepts t then .fits t.span.start [(none, .node kind t.span [])] rest
    else .fails t.span.start
  | [] => .fails 0

mutual

/-- Reads a pattern off the tokens. The fuel bounds the depth. -/
def run {Rule : Type} (grammar : Rule → Pattern Rule) (fuel : Nat) (p : Pattern Rule)
    (input : List Token) : Attempt :=
  match fuel with
  | 0 => .fails (positionOf input)
  | fuel + 1 =>
    let here := positionOf input
    match p with
    | .token text =>
      match input with
      | t :: rest =>
        if t.isPlain && t.text == text then .fits here [(none, signTree t)] rest
        else .fails here
      | [] => .fails here
    | .adjacent texts =>
      match adjacentTokens texts here here "" input with
      | some (tree, rest) => .fits here [(none, tree)] rest
      | none => .fails here
    | .closeAngle =>
      match takeAngle input with
      | some (tree, rest) => .fits here [(none, tree)] rest
      | none => .fails here
    | .leaf kind accepts => attemptLeaf kind accepts input
    | .seq parts => runSeq grammar fuel parts input here []
    | .choice alternatives => runChoice grammar fuel alternatives input here
    | .many p => runMany grammar fuel p input here []
    | .ahead p =>
      match (run grammar fuel p input).result with
      | some _ => .fits here [] input
      | none => .fails here
    | .notAhead p =>
      match (run grammar fuel p input).result with
      | some _ => .fails here
      | none => .fits here [] input
    | .only kinds p =>
      let a := run grammar fuel p input
      match a.result with
      | some ([(role, tree)], rest) =>
        if tree.kind ∈ kinds then .fits a.reach [(role, tree)] rest else .fails a.reach
      | _ => .fails a.reach
    | .node kind p =>
      let a := run grammar fuel p input
      match a.result with
      | some (parts, rest) => .fits a.reach [(none, treeOver kind parts here)] rest
      | none => a
    | .as role p =>
      let a := run grammar fuel p input
      match a.result with
      | some (parts, rest) => .fits a.reach (label role parts) rest
      | none => a
    | .nested first steps =>
      let a := run grammar fuel first input
      match a.result with
      | some ([(role, tree)], rest) => runNested grammar fuel steps steps a.reach role tree rest
      | _ => a
    | .rule r => run grammar fuel (grammar r) input

/-- Reads one pattern after the other; `done` holds the parts so far. -/
def runSeq {Rule : Type} (grammar : Rule → Pattern Rule) (fuel : Nat)
    (patterns : List (Pattern Rule)) (input : List Token) (reach : Nat) (done : Parts) : Attempt :=
  match fuel with
  | 0 => .fails reach
  | fuel + 1 =>
    match patterns with
    | [] => .fits reach done input
    | p :: patterns =>
      let a := (run grammar fuel p input).after reach
      match a.result with
      | some (parts, rest) => runSeq grammar fuel patterns rest a.reach (done ++ parts)
      | none => a

/-- Reads the first alternative that fits. -/
def runChoice {Rule : Type} (grammar : Rule → Pattern Rule) (fuel : Nat)
    (alternatives : List (Pattern Rule)) (input : List Token) (reach : Nat) : Attempt :=
  match fuel with
  | 0 => .fails reach
  | fuel + 1 =>
    match alternatives with
    | [] => .fails reach
    | p :: alternatives =>
      let a := (run grammar fuel p input).after reach
      match a.result with
      | some _ => a
      | none => runChoice grammar fuel alternatives input a.reach

/-- Reads a pattern as often as it fits. -/
def runMany {Rule : Type} (grammar : Rule → Pattern Rule) (fuel : Nat) (p : Pattern Rule)
    (input : List Token) (reach : Nat) (done : Parts) : Attempt :=
  match fuel with
  | 0 => .fails reach
  | fuel + 1 =>
    let a := (run grammar fuel p input).after reach
    match a.result with
    | some (parts, rest) => runMany grammar fuel p rest a.reach (done ++ parts)
    | none => .fits a.reach done input

/-- Reads continuations as long as one fits; `steps` are those still to
try on the tree so far. -/
def runNested {Rule : Type} (grammar : Rule → Pattern Rule) (fuel : Nat)
    (all steps : List (Kind × List Kind × Option Role × Pattern Rule)) (reach : Nat)
    (role : Option Role) (tree : Tree) (input : List Token) : Attempt :=
  match fuel with
  | 0 => .fails reach
  | fuel + 1 =>
    match steps with
    | [] => .fits reach [(role, tree)] input
    | (kind, kinds, part, p) :: steps =>
      if kinds.isEmpty || kinds.contains tree.kind then
        let a := (run grammar fuel p input).after reach
        match a.result with
        | some (parts, rest) =>
          let whole := treeOver kind ((part, tree) :: parts) 0
          runNested grammar fuel all all a.reach role whole rest
        | none => runNested grammar fuel all steps a.reach role tree input
      else runNested grammar fuel all steps reach role tree input

end

end Java

end Remedy
