import Remedy.Text.Bytes
import Remedy.Yaml.Cursor
/-!
# Scalars

A scalar is written plainly, in single or double quotes, or as a block
that keeps its lines or folds them. Each reader starts at the first
character of a scalar and answers its text and the cursor past it.
-/

namespace Remedy

namespace Yaml

/-- How a scalar is written. -/
inductive Style where
  | plain
  | single
  | double
  | literal
  | folded
deriving DecidableEq, Repr

/-- A scalar that was read. The place where it stops may lie before the
cursor. -/
structure ScannedScalar where
  text : List Char
  stop : Mark
  cursor : Cursor
  /-- The scalar was followed by a line break. -/
  endsLine : Bool
deriving Repr

/-! ## In quotes -/

/-- The character that an escape of one letter stands for. -/
def escaped? : Char → Option Char
  | '0' => some '\x00'
  | 'a' => some '\x07'
  | 'b' => some '\x08'
  | 't' | '\t' => some '\t'
  | 'n' => some '\n'
  | 'v' => some '\x0b'
  | 'f' => some '\x0c'
  | 'r' => some '\r'
  | 'e' => some '\x1b'
  | ' ' => some ' '
  | '"' => some '"'
  | '/' => some '/'
  | '\\' => some '\\'
  | 'N' => some (Char.ofNat 0x85)
  | '_' => some (Char.ofNat 0xA0)
  | 'L' => some (Char.ofNat 0x2028)
  | 'P' => some (Char.ofNat 0x2029)
  | _ => none

/-- How many digits follow the letter of an escape by number. -/
def escapeDigits? : Char → Option Nat
  | 'x' => some 2
  | 'u' => some 4
  | 'U' => some 8
  | _ => none

/-- The character of an escape by number. -/
def codePoint (start : Mark) (c : Cursor) (count : Nat) : Except Fault Char :=
  match ((c.rest.take count).mapM Hex.value?).filter (·.length = count) with
  | none => .error (c.fault .expectedHexDigit .escape start)
  | some digits =>
    let value := digits.foldl (fun n d => n * 16 + d) 0
    if value.isValidChar then .ok (Char.ofNat value)
    else .error (c.fault .badCodePoint .escape start)

/-- Reads an escape; the backslash is ahead. -/
def escape (start : Mark) (c : Cursor) : Except Fault (Char × Cursor) :=
  match c.peekAt 1 with
  | none => .error (c.fault .unknownEscape .escape start)
  | some letter =>
    match escaped? letter, escapeDigits? letter with
    | some x, _ => .ok (x, c.advance 2)
    | none, some count => (codePoint start (c.advance 2) count).map (·, c.advance (2 + count))
    | none, none => .error (c.fault .unknownEscape .escape start)

/-- Reads on in quotes, with the text so far in reverse. -/
def quotedFrom (style : Style) (start : Mark) :
    Nat → List Char → Cursor → Except Fault (List Char × Cursor)
  | 0, _, c => .error (c.fault .endOfStream .quotedScalar start)
  | fuel + 1, text, c =>
    let quote := if style = .single then '\'' else '"'
    let between (g : Gap) (c : Cursor) :=
      let (gap, next) := g.read 0 c
      quotedFrom style start fuel (gap.fold.reverse ++ text) next
    if c.atDocumentMark then .error (c.fault .documentIndicator .quotedScalar start)
    else
      match c.peek with
      | none => .error (c.fault .endOfStream .quotedScalar start)
      | some x =>
        if isGap x || isBreak x then between .none c
        else if style = .single ∧ c.rest.take 2 = ['\'', '\''] then
          quotedFrom style start fuel ('\'' :: text) (c.advance 2)
        else if x = quote then .ok (text.reverse, c.advance 1)
        else if style = .double ∧ x = '\\' then
          if (c.peekAt 1).any isBreak then between .joined (c.advance 1).passBreak
          else do
            let (y, next) ← escape start c
            quotedFrom style start fuel (y :: text) next
        else quotedFrom style start fuel (x :: text) (c.advance 1)

/-- **Reads a scalar in quotes.** -/
def quotedScalar (style : Style) (c : Cursor) : Except Fault ScannedScalar := do
  let (text, next) ← quotedFrom style c.mark (c.rest.length + 1) [] (c.advance 1)
  return ⟨text, next.mark, next, false⟩

/-! ## Plain -/

/-- A character that may stand after a colon inside brackets and makes it
a fault there. -/
def isFlowMark (c : Char) : Bool :=
  c = ',' || c = '?' || c = '[' || c = ']' || c = '\x7b' || c = '\x7d'

/-- A character that ends a plain scalar inside brackets. -/
def endsFlowWord (c : Char) : Bool := isFlowMark c && c ≠ '?'

/-- A colon that is a fault in a plain scalar. -/
def isBadColon (flow : Bool) : List Char → Bool
  | ':' :: next :: _ => flow && isFlowMark next
  | _ => false

/-- The word at the start of a text. It ends at white space, at a colon
that ends a word, and inside brackets at their marks. -/
def plainWord (flow : Bool) : List Char → List Char
  | [] => []
  | c :: rest =>
    if isGap c || isBreak c || isBadColon flow (c :: rest) then []
    else if c = ':' && endsWord rest.head? then []
    else if flow && endsFlowWord c then []
    else c :: plainWord flow rest

/-- Reads the words of a plain scalar, with the text so far. -/
def plainFrom (flow : Bool) (column : Nat) (start : Mark) :
    Nat → List Char → Gap → Mark → Cursor → Except Fault ScannedScalar
  | 0, text, gap, stop, c => .ok ⟨text, stop, c, gap.broken⟩
  | fuel + 1, text, gap, stop, c =>
    if c.atDocumentMark ∨ c.sees '#' then .ok ⟨text, stop, c, gap.broken⟩
    else
      let word := plainWord flow c.rest
      let next := c.advance word.length
      if isBadColon flow next.rest then .error (next.fault .unexpectedColon .plainScalar start)
      else if word.isEmpty then .ok ⟨text, stop, c, gap.broken⟩
      else
        let text := text ++ gap.fold ++ word
        let (gap, after) := Gap.none.read column next
        if after.sees '\t' then .error (after.fault .tabInIndentation .plainScalar start)
        else if !flow ∧ after.mark.column < column then
          .ok ⟨text, next.mark, after, gap.broken⟩
        else plainFrom flow column start fuel text gap next.mark after

/-- **Reads a plain scalar.** On later lines it has to keep to the right
of a column, unless it stands inside brackets. -/
def plainScalar (flow : Bool) (column : Nat) (c : Cursor) : Except Fault ScannedScalar :=
  plainFrom flow column c.mark (c.rest.length + 1) [] .none c.mark c

/-! ## Blocks -/

/-- What becomes of the line breaks at the end of a block. -/
inductive Chomping where
  | strip
  | clip
  | keep
deriving DecidableEq, Repr

/-- The head of a block: the breaks at its end, and how far it is
indented, if told. -/
structure BlockHead where
  chomping : Chomping
  increment : Option Nat
  cursor : Cursor
deriving Repr

/-- Reads the mark of a chomping. -/
def chomping? (c : Cursor) : Option Chomping :=
  if c.sees '+' then some .keep else if c.sees '-' then some .strip else none

/-- Reads an indentation. -/
def increment? (start : Mark) (c : Cursor) : Except Fault (Option Nat) :=
  match c.peek with
  | some x =>
    if x = '0' then .error (c.fault .zeroIndentation .blockScalar start)
    else .ok (if x.isDigit then Hex.value? x else none)
  | none => .ok none

/-- Reads the head of a block, which may have a chomping and an
indentation in either order. -/
def blockHead (start : Mark) (c : Cursor) : Except Fault BlockHead := do
  match chomping? c with
  | some chomping =>
    let c := c.advance 1
    let increment ← increment? start c
    return ⟨chomping, increment, if increment.isSome then c.advance 1 else c⟩
  | none =>
    match ← increment? start c with
    | some n =>
      let c := c.advance 1
      let chomping := chomping? c
      return ⟨chomping.getD .clip, some n, if chomping.isSome then c.advance 1 else c⟩
    | none => return ⟨.clip, none, c⟩

/-- Empty lines of a block: their breaks, the widest indentation, and
where the last of them ends. -/
structure EmptyLines where
  breaks : List Char
  widest : Nat
  stop : Mark
  cursor : Cursor
deriving Repr

/-- Reads empty lines, and the indentation of the line after them. -/
def emptyLines (start : Mark) (indent : Option Nat) :
    Nat → EmptyLines → Except Fault EmptyLines
  | 0, e => .ok e
  | fuel + 1, e =>
    let spaces := (e.cursor.run (· = ' ')).length
    let room := indent.elim spaces (· - e.cursor.mark.column)
    let c := e.cursor.advance (min spaces room)
    let widest := max e.widest c.mark.column
    if c.sees '\t' ∧ indent.all (c.mark.column < ·) then
      .error (c.fault .tabForIndentation .blockScalar start)
    else if c.seesA isBreak then
      let next := c.passBreak
      emptyLines start indent fuel ⟨e.breaks ++ c.breakText, widest, next.mark, next⟩
    else .ok { e with widest := widest, cursor := c }

/-- Reads the lines of a block, with the text so far, the break that ended
the line before, and whether that line began with white space. -/
def blockLines (literal : Bool) (start : Mark) (indent : Nat) :
    Nat → List Char → List Char → Bool → EmptyLines →
      Except Fault (List Char × List Char × EmptyLines)
  | 0, text, lineBreak, _, e => .ok (text, lineBreak, e)
  | fuel + 1, text, lineBreak, wasSpaced, e =>
    let c := e.cursor
    if c.mark.column ≠ indent ∨ c.rest.isEmpty then .ok (text, lineBreak, e)
    else do
      let spaced := c.seesA isGap
      let joint :=
        if !literal ∧ lineBreak = ['\n'] ∧ !wasSpaced ∧ !spaced then
          if e.breaks.isEmpty then [' '] else []
        else lineBreak
      let line := c.run fun x => !isBreak x
      let atEnd := c.advance line.length
      let next := atEnd.passAnyBreak
      let empty ← emptyLines start (some indent) (next.rest.length + 1) ⟨[], 0, next.mark, next⟩
      blockLines literal start indent fuel (text ++ joint ++ e.breaks ++ line)
        atEnd.breakText spaced empty

/-- **Reads a block.** Its indentation is told in its head or taken from
its first line that is not empty, and is never less than `least`. -/
def blockScalar (literal : Bool) (least : Nat) (c : Cursor) : Except Fault ScannedScalar := do
  let start := c.mark
  let head ← blockHead start (c.advance 1)
  let c := (head.cursor.passAll isGap).passComment
  if !endsLine c.peek then throw (c.fault .expectedLineEnd .blockScalar start)
  let c := c.passAnyBreak
  let told := head.increment.map (least - 1 + ·)
  let empty ← emptyLines start told (c.rest.length + 1) ⟨[], 0, c.mark, c⟩
  let indent := told.getD (max (max empty.widest least) 1)
  let (text, lineBreak, last) ←
    blockLines literal start indent (c.rest.length + 1) [] [] false empty
  let tail := match head.chomping with
    | .strip => []
    | .clip => lineBreak
    | .keep => lineBreak ++ last.breaks
  return ⟨text ++ tail, last.stop, last.cursor, false⟩

end Yaml

end Remedy
