import Remedy.Yaml.Scalar
import Remedy.Yaml.Tag
/-!
# Tokens

`Lexer.tokens` cuts a stream into tokens. Indentation opens and closes
block collections, for which tokens stand that no character writes. A
token that may turn out to be a key is held back until it is known whether
a colon follows it on its line, since the key and the mapping it opens
come before it. The tokens before a fault are answered with the fault.
-/

namespace Remedy

namespace Yaml

/-- What a token is. -/
inductive TokenKind where
  | streamEnd
  | directive (told : Directive)
  | documentStart
  | documentEnd
  | blockSequenceStart
  | blockMappingStart
  | blockEnd
  | flowSequenceStart
  | flowSequenceEnd
  | flowMappingStart
  | flowMappingEnd
  | blockEntry
  | flowEntry
  | key
  | value
  | alias (name : String)
  | anchor (name : String)
  | tag (name : TagName)
  | scalar (style : Style) (text : String)
deriving DecidableEq, Repr

/-- A token with its place. -/
structure Token where
  kind : TokenKind
  start : Mark
  stop : Mark
deriving Repr

/-- A token that may turn out to be a key: whether it has to be one, which
of all tokens it is, and where it starts. -/
structure KeyCandidate where
  required : Bool
  number : Nat
  mark : Mark
deriving Repr

/-- The most characters from the start of a key to its colon. -/
def keyLimit : Nat := 1024

/-- Where the cutting stands: the tokens held back after so many that were
given out, the columns of the open block collections, innermost first, and
the possible key of this level and of the brackets around it. -/
structure Lexer where
  cursor : Cursor
  held : List Token
  given : Nat
  columns : List Nat
  key : Option KeyCandidate
  outerKeys : List (Option KeyCandidate)
  keyAllowed : Bool
  ended : Bool
deriving Repr

namespace Lexer

/-- At the start of a stream. -/
def ofChars (text : List Char) : Lexer :=
  { cursor := ⟨text, .origin⟩, held := [], given := 0, columns := [], key := none
    outerKeys := [], keyAllowed := true, ended := false }

/-- Inside brackets. -/
def inFlow (l : Lexer) : Bool := !l.outerKeys.isEmpty

/-- The first column inside the block collection. -/
def innerColumn (l : Lexer) : Nat := l.columns.head?.elim 0 (· + 1)

/-- A fault without a context, here. -/
def bareFault (l : Lexer) (problem : Problem) : Fault := ⟨problem, l.cursor.mark, none⟩

/-- Adds a token. -/
def push (l : Lexer) (token : Token) : Lexer := { l with held := l.held ++ [token] }

/-- Puts a token before the one of a number. -/
def insertAt (l : Lexer) (number : Nat) (token : Token) : Lexer :=
  let before := number - l.given
  { l with held := l.held.take before ++ token :: l.held.drop before }

/-- Adds a token without content that has so many characters. -/
def pushMark (l : Lexer) (kind : TokenKind) (width : Nat) : Lexer :=
  let next := l.cursor.advance width
  { l.push ⟨kind, l.cursor.mark, next.mark⟩ with cursor := next }

/-! ## Keys -/

/-- A key that is required has to be followed by a colon. -/
def missingColon (l : Lexer) (k : KeyCandidate) : Fault :=
  l.cursor.fault .expectedColon .simpleKey k.mark

/-- A possible key that is too far back to be one. -/
def isStale (l : Lexer) (k : KeyCandidate) : Bool :=
  k.mark.line < l.cursor.mark.line || k.mark.index + keyLimit < l.cursor.mark.index

/-- Gives up possible keys that are too far back. -/
def dropStaleKeys (l : Lexer) : Except Fault Lexer :=
  let keys := (l.key :: l.outerKeys).filterMap id
  match keys.find? fun k => l.isStale k && k.required with
  | some k => .error (l.missingColon k)
  | none =>
    let fresh (k : Option KeyCandidate) := k.filter fun k => !l.isStale k
    .ok { l with key := fresh l.key, outerKeys := l.outerKeys.map fresh }

/-- Gives up the possible key of this level. -/
def dropKey (l : Lexer) : Except Fault Lexer :=
  match l.key with
  | some k => if k.required then .error (l.missingColon k) else .ok { l with key := none }
  | none => .ok l

/-- Notes that the next token may be a key. -/
def noteKey (l : Lexer) : Except Fault Lexer := do
  if l.keyAllowed then
    let required := !l.inFlow && l.columns.head? = some l.cursor.mark.column
    let l ← l.dropKey
    return { l with key := some ⟨required, l.given + l.held.length, l.cursor.mark⟩ }
  return l

/-! ## Indentation -/

/-- Opens a block collection if a column lies further in. Its token comes
before the token of a number, or last. -/
def openBlock (l : Lexer) (column : Nat) (number : Option Nat) (kind : TokenKind) (mark : Mark) :
    Lexer :=
  if l.inFlow ∨ column < l.innerColumn then l
  else
    let token : Token := ⟨kind, mark, mark⟩
    let l := { l with columns := column :: l.columns }
    match number with
    | some n => l.insertAt n token
    | none => l.push token

/-- Closes the block collections that a test picks. -/
def closeWhile (l : Lexer) (p : Nat → Bool) : Lexer :=
  if l.inFlow then l
  else
    let closed := l.columns.takeWhile p
    let token : Token := ⟨.blockEnd, l.cursor.mark, l.cursor.mark⟩
    { l with
      held := l.held ++ closed.map fun _ => token
      columns := l.columns.drop closed.length }

/-- Closes all block collections. -/
def closeAll (l : Lexer) : Lexer := l.closeWhile fun _ => true

/-! ## Between tokens -/

/-- Passes white space, comments and line breaks. A line break in a block
allows a key. -/
def passBlanks : Nat → Lexer → Lexer
  | 0, l => l
  | fuel + 1, l =>
    let c := l.cursor
    let c := if c.mark.column = 0 then c.passChar (Char.ofNat 0xFEFF) else c
    let tabs := l.inFlow || !l.keyAllowed
    let c := (c.passAll fun x => x = ' ' || (tabs && x = '\t')).passComment
    if c.seesA isBreak then
      passBlanks fuel { l with cursor := c.passBreak, keyAllowed := l.keyAllowed || !l.inFlow }
    else { l with cursor := c }

/-! ## Tokens -/

/-- Ends the stream. The end is told at the start of a line. -/
def endStream (l : Lexer) : Except Fault Lexer := do
  let mark := l.cursor.mark
  let mark := if mark.column = 0 then mark else { mark with line := mark.line + 1, column := 0 }
  let l ← ({ l with cursor.mark := mark }.closeAll).dropKey
  return { l.pushMark .streamEnd 0 with keyAllowed := false, ended := true }

/-- A directive. -/
def takeDirective (l : Lexer) : Except Fault Lexer := do
  let l ← l.closeAll.dropKey
  let (told, stop, next) ← directive l.cursor
  return { l.push ⟨.directive told, l.cursor.mark, stop⟩ with
    cursor := next, keyAllowed := false }

/-- The start or the end of a document. -/
def takeDocumentMark (l : Lexer) (kind : TokenKind) : Except Fault Lexer := do
  let l ← l.closeAll.dropKey
  return { l.pushMark kind 3 with keyAllowed := false }

/-- An opening bracket. -/
def openFlow (l : Lexer) (kind : TokenKind) : Except Fault Lexer := do
  let l ← l.noteKey
  return { l.pushMark kind 1 with
    outerKeys := l.key :: l.outerKeys, key := none, keyAllowed := true }

/-- A closing bracket. -/
def closeFlow (l : Lexer) (kind : TokenKind) : Except Fault Lexer := do
  let l ← l.dropKey
  let l := match l.outerKeys with
    | [] => l
    | key :: outer => { l with key := key, outerKeys := outer }
  return { l.pushMark kind 1 with keyAllowed := false }

/-- A comma inside brackets. -/
def takeFlowEntry (l : Lexer) : Except Fault Lexer := do
  let l ← l.dropKey
  return { l.pushMark .flowEntry 1 with keyAllowed := true }

/-- The dash of a block sequence. -/
def takeBlockEntry (l : Lexer) : Except Fault Lexer := do
  if !l.inFlow ∧ !l.keyAllowed then throw (l.bareFault .entryNotAllowed)
  let l := l.openBlock l.cursor.mark.column none .blockSequenceStart l.cursor.mark
  let l ← l.dropKey
  return { l.pushMark .blockEntry 1 with keyAllowed := true }

/-- The question mark before a key. -/
def takeKey (l : Lexer) : Except Fault Lexer := do
  if !l.inFlow ∧ !l.keyAllowed then throw (l.bareFault .keyNotAllowed)
  let l := l.openBlock l.cursor.mark.column none .blockMappingStart l.cursor.mark
  let l ← l.dropKey
  return { l.pushMark .key 1 with keyAllowed := !l.inFlow }

/-- The colon before a value. If a possible key comes before it, that is
one, and opens a mapping if it stands further in. -/
def takeValue (l : Lexer) : Except Fault Lexer := do
  match l.key with
  | some k =>
    let l := l.insertAt k.number ⟨.key, k.mark, k.mark⟩
    let l := l.openBlock k.mark.column (some k.number) .blockMappingStart k.mark
    return { l.pushMark .value 1 with key := none, keyAllowed := false }
  | none =>
    if !l.inFlow ∧ !l.keyAllowed then throw (l.bareFault .valueNotAllowed)
    let l := l.openBlock l.cursor.mark.column none .blockMappingStart l.cursor.mark
    return { l.pushMark .value 1 with keyAllowed := !l.inFlow }

/-- A token with content that may be a key. -/
def takeNode (l : Lexer) (read : Cursor → Except Fault (TokenKind × Mark × Cursor)) :
    Except Fault Lexer := do
  let l ← l.noteKey
  let (kind, stop, next) ← read l.cursor
  return { l.push ⟨kind, l.cursor.mark, stop⟩ with cursor := next, keyAllowed := false }

/-- A name after its mark. -/
def takeName (l : Lexer) (activity : Activity) (kind : String → TokenKind) :
    Except Fault Lexer :=
  l.takeNode fun c => do
    let (name, next) ← anchorName activity c
    return (kind name, next.mark, next)

/-- A tag. -/
def takeTag (l : Lexer) : Except Fault Lexer :=
  l.takeNode fun c => do
    let (name, next) ← tag l.inFlow c
    return (.tag name, next.mark, next)

/-- A scalar in quotes. -/
def takeQuoted (l : Lexer) (style : Style) : Except Fault Lexer :=
  l.takeNode fun c => do
    let s ← quotedScalar style c
    return (.scalar style (String.ofList s.text), s.stop, s.cursor)

/-- A plain scalar. A line break after it allows a key. -/
def takePlain (l : Lexer) : Except Fault Lexer := do
  let l ← l.noteKey
  let s ← plainScalar l.inFlow l.innerColumn l.cursor
  return { l.push ⟨.scalar .plain (String.ofList s.text), l.cursor.mark, s.stop⟩ with
    cursor := s.cursor, keyAllowed := s.endsLine }

/-- A block scalar, which cannot be a key. -/
def takeBlockScalar (l : Lexer) (style : Style) : Except Fault Lexer := do
  let l ← l.dropKey
  let s ← blockScalar (style = .literal) l.innerColumn l.cursor
  return { l.push ⟨.scalar style (String.ofList s.text), l.cursor.mark, s.stop⟩ with
    cursor := s.cursor, keyAllowed := true }

/-- A character that cannot begin a plain scalar. -/
def isIndicator (c : Char) : Bool :=
  "-?:,[]\x7b\x7d#&*!|>'\"%@\x60".toList.contains c

/-- A plain scalar begins here. A dash, a question mark and a colon begin
one if they are not the end of a word; the latter two not inside
brackets. -/
def beginsPlain (l : Lexer) (c : Char) : Bool :=
  let next := l.cursor.peekAt 1
  if endsWord (some c) then false
  else if c = '-' then !next.any isGap
  else if c = '?' || c = ':' then !l.inFlow && !endsWord next
  else !isIndicator c

/-- The token at a character. -/
def takeAt (l : Lexer) (x : Char) : Except Fault Lexer :=
  let c := l.cursor
  let alone := endsWord (c.peekAt 1)
  if c.mark.column = 0 ∧ x = '%' then l.takeDirective
  else if c.seesTriple '-' then l.takeDocumentMark .documentStart
  else if c.seesTriple '.' then l.takeDocumentMark .documentEnd
  else if x = '[' then l.openFlow .flowSequenceStart
  else if x = '\x7b' then l.openFlow .flowMappingStart
  else if x = ']' then l.closeFlow .flowSequenceEnd
  else if x = '\x7d' then l.closeFlow .flowMappingEnd
  else if x = ',' then l.takeFlowEntry
  else if x = '-' ∧ alone then l.takeBlockEntry
  else if x = '?' ∧ (l.inFlow ∨ alone) then l.takeKey
  else if x = ':' ∧ (l.inFlow ∨ alone) then l.takeValue
  else if x = '*' then l.takeName .alias .alias
  else if x = '&' then l.takeName .anchor .anchor
  else if x = '!' then l.takeTag
  else if x = '|' ∧ !l.inFlow then l.takeBlockScalar .literal
  else if x = '>' ∧ !l.inFlow then l.takeBlockScalar .folded
  else if x = '\'' then l.takeQuoted .single
  else if x = '"' then l.takeQuoted .double
  else if l.beginsPlain x then l.takePlain
  else .error (c.fault .noTokenStart .nextToken c.mark)

/-- Cuts off the next token. -/
def takeToken (l : Lexer) : Except Fault Lexer := do
  let l ← (passBlanks (l.cursor.rest.length + 1) l).dropStaleKeys
  let l := l.closeWhile fun column => l.cursor.mark.column < column
  match l.cursor.peek with
  | none => l.endStream
  | some x => l.takeAt x

/-- Gives out the tokens that come before any possible key. -/
def release (l : Lexer) : Except Fault (List Token × Lexer) := do
  if l.held.isEmpty then return ([], l)
  let l ← l.dropStaleKeys
  let numbers := (l.key :: l.outerKeys).filterMap (·.map KeyCandidate.number)
  let count := numbers.foldl (fun n number => min n (number - l.given)) l.held.length
  return (l.held.take count, { l with held := l.held.drop count, given := l.given + count })

/-- Cuts the rest of a stream. -/
def run : Nat → Lexer → List Token × Option Fault
  | 0, _ => ([], none)
  | fuel + 1, l =>
    match l.release with
    | .error fault => ([], some fault)
    | .ok (ready, l) =>
      if l.ended then (ready, none)
      else
        match l.takeToken with
        | .error fault => (ready, some fault)
        | .ok l =>
          let (later, fault) := run fuel l
          (ready ++ later, fault)

end Lexer

/-- The control character that a stream must not hold, if there is one. A
byte order mark at its start counts as bytes alone. -/
def controlFault? (text : List Char) : Option Fault :=
  let good := text.takeWhile isAllowed
  if good.length = text.length then none
  else
    let offset := (Utf8.encode (String.ofList good)).length
    some ⟨.controlCharacter offset, .origin, none⟩

/-- **The tokens of a stream**, up to a fault if it has one. -/
def tokens (stream : String) : List Token × Option Fault :=
  match controlFault? stream.toList with
  | some fault => ([], some fault)
  | none =>
    let text := match stream.toList with
      | c :: rest => if c.toNat = 0xFEFF then rest else c :: rest
      | [] => []
    (Lexer.ofChars text).run (text.length + 2)

end Yaml

end Remedy
