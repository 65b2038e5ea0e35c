/-!
# Glob patterns

`*` matches any characters, `?` any one, `[..]` one of a set, `[!..]` one
outside it. `**` must be a whole component and matches any number of
directories, or everything at the end. The separator has no special part
in the other wildcards. `Glob.parse` reads a pattern, `Glob.matches`
decides it.
-/

namespace Remedy

/-- A range of characters, ends included. -/
structure CharRange where
  first : Char
  last : Char
deriving DecidableEq, Repr

/-- The range holds a character. -/
def CharRange.holds (r : CharRange) (c : Char) : Bool := r.first ≤ c && c ≤ r.last

/-- One piece of a pattern. -/
inductive GlobToken where
  | literal (c : Char)
  | anyChar
  | within (ranges : List CharRange)
  | except (ranges : List CharRange)
  | anySequence
  | anyDirectories
deriving DecidableEq, Repr

/-- Why a text is no pattern, and the character at which it shows. -/
inductive GlobError where
  | invalidRange (position : Nat)
  | tooManyStars (position : Nat)
  | partialComponent (position : Nat)
deriving DecidableEq, Repr

/-- The wording of an error. -/
def GlobError.message : GlobError → String
  | .invalidRange p => s!"Pattern syntax error near position {p}: invalid range pattern"
  | .tooManyStars p =>
    s!"Pattern syntax error near position {p}: wildcards are either regular `*` or recursive `**`"
  | .partialComponent p =>
    s!"Pattern syntax error near position {p}: recursive wildcards must form a single path component"

/-- A pattern that was read. -/
structure Glob where
  tokens : List GlobToken
deriving DecidableEq, Repr

namespace Glob

/-- The ranges of a set: `a-z` from three characters, otherwise one by
one. -/
def rangesOf : List Char → List CharRange
  | a :: '-' :: b :: rest => ⟨a, b⟩ :: rangesOf rest
  | a :: rest => ⟨a, a⟩ :: rangesOf rest
  | [] => []

/-- A set behind its opening bracket, which holds at least one character,
and what follows it. -/
def parseSet? : List Char → Option (GlobToken × List Char)
  | '!' :: c :: rest =>
    let inside := rest.takeWhile (· ≠ ']')
    match rest.drop inside.length with
    | ']' :: after => some (.except (rangesOf (c :: inside)), after)
    | _ => none
  | '!' :: [] => none
  | c :: rest =>
    let inside := rest.takeWhile (· ≠ ']')
    match rest.drop inside.length with
    | ']' :: after => some (.within (rangesOf (c :: inside)), after)
    | _ => none
  | [] => none

/-- A run of stars behind its first one: the token and what follows it.
`start` is the place of the first star, `before` the character ahead of
it. -/
def parseStars (start : Nat) (before : Option Char) (rest : List Char) :
    Except GlobError (GlobToken × List Char) :=
  let more := (rest.takeWhile (· = '*')).length
  let after := rest.drop more
  if more = 0 then .ok (.anySequence, rest)
  else if 1 < more then .error (.tooManyStars (start + 2))
  else if before.any (· ≠ '/') then .error (.partialComponent (start - 1))
  else
    match after with
    | [] => .ok (.anyDirectories, [])
    | '/' :: after => .ok (.anyDirectories, after)
    | _ => .error (.partialComponent (start + 2))

/-- Reads tokens, held in reverse, until the pattern ends. The fuel is the
length of the pattern. -/
def parseFrom (size : Nat) (done : List GlobToken) (before : Option Char) (rest : List Char) :
    Nat → Except GlobError (List GlobToken)
  | 0 => .ok done.reverse
  | fuel + 1 =>
    match rest with
    | [] => .ok done.reverse
    | '?' :: rest => parseFrom size (.anyChar :: done) (some '?') rest fuel
    | '*' :: rest => do
      let (token, after) ← parseStars (size - rest.length - 1) before rest
      let last := (rest.take (rest.length - after.length)).getLast?.getD '*'
      parseFrom size (token :: done) (some last) after fuel
    | '[' :: rest =>
      match parseSet? rest with
      | some (token, after) => parseFrom size (token :: done) (some ']') after fuel
      | none => .error (.invalidRange (size - rest.length - 1))
    | c :: rest => parseFrom size (.literal c :: done) (some c) rest fuel

/-- **The pattern that a text stands for.** -/
def parse (text : String) : Except GlobError Glob :=
  let chars := text.toList
  (parseFrom chars.length [] none chars (chars.length + 1)).map Glob.mk

/-- The ends of a text, from the whole of it to nothing. -/
def suffixes : List Char → List (List Char)
  | [] => [[]]
  | c :: cs => (c :: cs) :: suffixes cs

/-- What is left of a text behind each of its separators, and nothing. -/
def behindSeparators : List Char → List (List Char)
  | [] => [[]]
  | '/' :: cs => cs :: behindSeparators cs
  | _ :: cs => behindSeparators cs

/-- Whether the tokens match all of a text. -/
def matchTokens : List GlobToken → List Char → Bool
  | [], text => text.isEmpty
  | .anySequence :: tokens, text => (suffixes text).any (matchTokens tokens)
  | .anyDirectories :: tokens, text =>
    matchTokens tokens text || (behindSeparators text).any (matchTokens tokens)
  | .literal c :: tokens, d :: text => c == d && matchTokens tokens text
  | .anyChar :: tokens, _ :: text => matchTokens tokens text
  | .within ranges :: tokens, d :: text => ranges.any (·.holds d) && matchTokens tokens text
  | .except ranges :: tokens, d :: text => !ranges.any (·.holds d) && matchTokens tokens text
  | _ :: _, [] => false

/-- **Whether the pattern matches a text.** -/
def «matches» (g : Glob) (text : String) : Bool := matchTokens g.tokens text.toList

end Glob

end Remedy
