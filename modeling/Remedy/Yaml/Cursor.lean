import Remedy.Yaml.Fault
/-!
# Moving through a YAML stream

A cursor is what is left of a stream and the place where it starts. White
space inside a line is a space or a tab; a line ends at CR, LF, both, NEL,
LS or PS, and a break stands for a line feed in content unless it is LS or
PS. Scalars that run over lines fold what lies between two words.
-/

namespace Remedy

namespace Yaml

/-- A character that ends a line. -/
def isBreak (c : Char) : Bool :=
  c = '\n' || c = '\r' || c.toNat = 0x85 || c.toNat = 0x2028 || c.toNat = 0x2029

/-- White space inside a line. -/
def isGap (c : Char) : Bool := c = ' ' || c = '\t'

/-- A line ends here: at a break or at the end of the stream. -/
def endsLine : Option Char → Bool
  | none => true
  | some c => isBreak c

/-- A word ends here: at white space, a break or the end of the stream. -/
def endsWord : Option Char → Bool
  | none => true
  | some c => isGap c || isBreak c

/-- A character of names: a letter or digit of ASCII, a dash or a low
line. -/
def isNameChar (c : Char) : Bool := c.isAlphanum || c = '-' || c = '_'

/-- A character that a stream may hold. -/
def isAllowed (c : Char) : Bool :=
  let n := c.toNat
  n = 0x09 || n = 0x0A || n = 0x0D || (0x20 ≤ n && n ≤ 0x7E) || n = 0x85 ||
    (0xA0 ≤ n && n ≤ 0xD7FF) || (0xE000 ≤ n && n ≤ 0xFFFD) || 0x10000 ≤ n

/-- What is left of a stream, and where. -/
structure Cursor where
  rest : List Char
  mark : Mark
deriving Repr, Inhabited

namespace Cursor

/-- The character ahead. -/
def peek (c : Cursor) : Option Char := c.rest.head?

/-- The character `n` places ahead. -/
def peekAt (c : Cursor) (n : Nat) : Option Char := c.rest[n]?

/-- A character is ahead. -/
def sees (c : Cursor) (x : Char) : Bool := c.peek = some x

/-- One of a class of characters is ahead. -/
def seesA (c : Cursor) (p : Char → Bool) : Bool := c.peek.any p

/-- The cursor past `n` characters of a line. -/
def advance (c : Cursor) (n : Nat) : Cursor :=
  ⟨c.rest.drop n, { c.mark with index := c.mark.index + n, column := c.mark.column + n }⟩

/-- The cursor past one line break. -/
def passBreak (c : Cursor) : Cursor :=
  match c.rest with
  | '\r' :: '\n' :: rest => ⟨rest, ⟨c.mark.index + 2, c.mark.line + 1, 0⟩⟩
  | _ :: rest => ⟨rest, ⟨c.mark.index + 1, c.mark.line + 1, 0⟩⟩
  | [] => c

/-- What the line break ahead stands for; nothing if none is ahead. -/
def breakText (c : Cursor) : List Char :=
  match c.peek with
  | none => []
  | some x =>
    if x.toNat = 0x2028 ∨ x.toNat = 0x2029 then [x]
    else if isBreak x then ['\n']
    else []

/-- The characters ahead as long as they are of a class. -/
def run (c : Cursor) (p : Char → Bool) : List Char := c.rest.takeWhile p

/-- The cursor past the characters of a class. -/
def passAll (c : Cursor) (p : Char → Bool) : Cursor := c.advance (c.run p).length

/-- The cursor past a character, if it is ahead. -/
def passChar (c : Cursor) (x : Char) : Cursor := if c.sees x then c.advance 1 else c

/-- The cursor past the rest of the line, if it is a comment. -/
def passComment (c : Cursor) : Cursor :=
  if c.sees '#' then c.passAll fun x => !isBreak x else c

/-- The cursor past a line break, if one is ahead. -/
def passAnyBreak (c : Cursor) : Cursor := if c.seesA isBreak then c.passBreak else c

/-- Three of a character stand at the start of a line, as a word. -/
def seesTriple (c : Cursor) (x : Char) : Bool :=
  c.mark.column = 0 && c.rest.take 3 = [x, x, x] && endsWord (c.peekAt 3)

/-- A document starts or ends here. -/
def atDocumentMark (c : Cursor) : Bool := c.seesTriple '-' || c.seesTriple '.'

/-- A fault here, while something is read that began at a place. -/
def fault (c : Cursor) (problem : Problem) (activity : Activity) (start : Mark) : Fault :=
  ⟨problem, c.mark, some (activity, start)⟩

end Cursor

/-- White space between two words of a scalar: the spaces before any line
break, whether there was a break, the first break, and the later ones. -/
structure Gap where
  spaces : List Char
  broken : Bool
  first : List Char
  later : List Char
deriving Repr

namespace Gap

/-- No white space yet. -/
def none : Gap := ⟨[], false, [], []⟩

/-- The gap after an escaped line break. -/
def joined : Gap := ⟨[], true, [], []⟩

/-- **What a gap becomes in content.** One line feed turns into a space,
several lose the first. -/
def fold (g : Gap) : List Char :=
  if !g.broken then g.spaces
  else if g.first = ['\n'] then (if g.later.isEmpty then [' '] else g.later)
  else g.first ++ g.later

/-- Reads on in a gap. It stops at a tab that stands left of a column, on
a later line. -/
def extend (column : Nat) : Nat → Gap → Cursor → Gap × Cursor
  | 0, g, c => (g, c)
  | fuel + 1, g, c =>
    if c.seesA isGap then
      if !g.broken then
        extend column fuel { g with spaces := g.spaces ++ c.rest.take 1 } (c.advance 1)
      else if c.sees '\t' ∧ c.mark.column < column then (g, c)
      else extend column fuel g (c.advance 1)
    else if c.seesA isBreak then
      let g :=
        if g.broken then { g with later := g.later ++ c.breakText }
        else ⟨[], true, c.breakText, []⟩
      extend column fuel g c.passBreak
    else (g, c)

/-- Reads a gap. -/
def read (g : Gap) (column : Nat) (c : Cursor) : Gap × Cursor :=
  extend column c.rest.length g c

end Gap

end Yaml

end Remedy
