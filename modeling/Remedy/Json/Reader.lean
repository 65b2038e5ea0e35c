import Remedy.Decimal.Power
import Remedy.Json.Basic
import Remedy.Text.Utf8
/-!
# Reading JSON

The reader works on bytes and stops at the first fault, which it reports
as a cause and an offset; `JsonError.message` turns the offset into a line
and a column. A document nested deeper than 127 levels is refused. Numbers
too large for 64 bits are read as doubles, and a repeated key takes its
last value.
-/

namespace Remedy

/-- What is wrong with a text that is not JSON. -/
inductive JsonFault where
  | endInList
  | endInObject
  | endInString
  | endInValue
  | expectedColon
  | expectedListCommaOrEnd
  | expectedObjectCommaOrEnd
  | expectedIdent
  | expectedValue
  | invalidEscape
  | invalidNumber
  | numberOutOfRange
  | invalidCodePoint
  | controlCharacter
  | keyNotString
  | loneSurrogate
  | trailingComma
  | trailingCharacters
  | endOfHexEscape
  | tooDeep
deriving DecidableEq, Repr

/-- The wording of a fault. -/
def JsonFault.message : JsonFault → String
  | .endInList => "EOF while parsing a list"
  | .endInObject => "EOF while parsing an object"
  | .endInString => "EOF while parsing a string"
  | .endInValue => "EOF while parsing a value"
  | .expectedColon => "expected `:`"
  | .expectedListCommaOrEnd => "expected `,` or `]`"
  | .expectedObjectCommaOrEnd => "expected `,` or `\x7d`"
  | .expectedIdent => "expected ident"
  | .expectedValue => "expected value"
  | .invalidEscape => "invalid escape"
  | .invalidNumber => "invalid number"
  | .numberOutOfRange => "number out of range"
  | .invalidCodePoint => "invalid unicode code point"
  | .controlCharacter => "control character (\\u0000-\\u001F) found while parsing a string"
  | .keyNotString => "key must be a string"
  | .loneSurrogate => "lone leading surrogate in hex escape"
  | .trailingComma => "trailing comma"
  | .trailingCharacters => "trailing characters"
  | .endOfHexEscape => "unexpected end of hex escape"
  | .tooDeep => "recursion limit exceeded"

/-- A fault and where the reader stood. -/
structure JsonError where
  fault : JsonFault
  offset : Nat
deriving DecidableEq, Repr

/-- The message of an error in a document. Lines count from one; the
column counts the bytes since the last line feed. -/
def JsonError.message (e : JsonError) (document : Bytes) : String :=
  let before := document.take e.offset
  let line := before.count 10 + 1
  let column := (before.reverse.takeWhile (· ≠ 10)).length
  s!"{e.fault.message} at line {line} column {column}"

namespace Json

/-- What is left of a document, and how much of it was read. -/
structure Cursor where
  index : Nat
  rest : Bytes
deriving Repr

namespace Cursor

/-- The cursor `n` bytes further on. -/
def advance (c : Cursor) (n : Nat) : Cursor := ⟨c.index + n, c.rest.drop n⟩

/-- A fault at the last byte that was read. -/
def fail (c : Cursor) (fault : JsonFault) : Except JsonError α := .error ⟨fault, c.index⟩

/-- A fault at the byte that comes next. -/
def failNext (c : Cursor) (fault : JsonFault) : Except JsonError α :=
  .error ⟨fault, if c.rest.isEmpty then c.index else c.index + 1⟩

/-- Spaces, tabs and line breaks. -/
def isSpace (b : UInt8) : Bool := b == 32 || b == 10 || b == 9 || b == 13

/-- The cursor past any white space. -/
def skipSpace (c : Cursor) : Cursor := c.advance (c.rest.takeWhile isSpace).length

end Cursor

/-- A decimal digit. -/
def isDigit (b : UInt8) : Bool := 48 ≤ b && b ≤ 57

/-- The rest of a word, of which the first letter was read. -/
def readWord (c : Cursor) : Bytes → Except JsonError (Unit × Cursor)
  | [] => .ok ((), c)
  | letter :: word =>
    match c.rest with
    | [] => c.fail .endInValue
    | b :: _ =>
      if b = letter then readWord (c.advance 1) word
      else (c.advance 1).fail .expectedIdent

/-! ## Numbers

The digits are gathered into a significand of at most 64 bits and a
decimal exponent; further digits only move the exponent. -/

/-- The bound of an unsigned 64-bit number. -/
def wordLimit : Nat := Power.two 64

/-- A power of ten as a double. -/
def tenTo (n : Nat) : Float := Float.ofScientific 1 false n

/-- The double `f · 10 ^ exponent`: one rounding for an exponent of up to
308 either way, and steps of 308 below that. -/
def scaleFrom (f : Float) (exponent : Int) : Nat → Option Float
  | 0 => none
  | steps + 1 =>
    if exponent.natAbs ≤ 308 then
      if 0 ≤ exponent then
        let scaled := f * tenTo exponent.natAbs
        if scaled.isInf then none else some scaled
      else some (f / tenTo exponent.natAbs)
    else if f == 0.0 then some f
    else if 0 ≤ exponent then none
    else scaleFrom (f / tenTo 308) (exponent + 308) steps

/-- A significand and an exponent as a signed double, or a fault if it is
too large. -/
def toFloat (c : Cursor) (minus : Bool) (significand : Nat) (exponent : Int) : Except JsonError (JsonNumber × Cursor) :=
  match scaleFrom (UInt64.ofNat significand).toFloat exponent 8 with
  | some f => .ok (.float (if minus then -f else f), c)
  | none => c.fail .numberOutOfRange

/-- The largest exponent that is read as a number. -/
def exponentLimit : Nat := Power.two 31

/-- The digits of an exponent, up to `exponentLimit`. -/
def readExponentDigits (e : Nat) (c : Cursor) : Bytes → Option Nat × Cursor
  | [] => (some e, c)
  | b :: rest =>
    if isDigit b then
      let next := e * 10 + (b.toNat - 48)
      if next < exponentLimit then readExponentDigits next ⟨c.index + 1, rest⟩ rest
      else (none, ⟨c.index + 1, rest⟩)
    else (some e, c)

/-- A signed 32-bit exponent, held at the bounds. -/
def clampExponent (e : Int) : Int := max (-(exponentLimit : Int)) (min (exponentLimit - 1) e)

/-- An exponent, of which the letter comes next. -/
def readExponent (c : Cursor) (minus : Bool) (significand : Nat) (start : Int) :
    Except JsonError (JsonNumber × Cursor) :=
  let c := c.advance 1
  let (down, c) :=
    match c.rest with
    | 43 :: _ => (false, c.advance 1)
    | 45 :: _ => (true, c.advance 1)
    | _ => (false, c)
  match c.rest with
  | [] => c.fail .endInValue
  | b :: _ =>
    if isDigit b then
      let c := c.advance 1
      match readExponentDigits (b.toNat - 48) c c.rest with
      | (some e, c) =>
        toFloat c minus significand (clampExponent (if down then start - e else start + e))
      | (none, c) =>
        if significand ≠ 0 ∧ !down then c.fail .numberOutOfRange
        else
          let c := c.advance (c.rest.takeWhile isDigit).length
          .ok (.float (if minus then -0.0 else 0.0), c)
    else (c.advance 1).fail .invalidNumber

/-- The digits after a point: the significand, how many of them it took
up, and the cursor at the first digit it had no room for. -/
def readFraction (significand taken : Nat) (c : Cursor) : Bytes → Nat × Nat × Cursor
  | [] => (significand, taken, c)
  | b :: rest =>
    let next := significand * 10 + (b.toNat - 48)
    if isDigit b ∧ next < wordLimit then readFraction next (taken + 1) ⟨c.index + 1, rest⟩ rest
    else (significand, taken, c)

/-- A number from its point on. -/
def readDecimal (c : Cursor) (minus : Bool) (significand : Nat) (exponent : Int) :
    Except JsonError (JsonNumber × Cursor) :=
  let c := c.advance 1
  let (significand, taken, c) := readFraction significand 0 c c.rest
  let dropped := (c.rest.takeWhile isDigit).length
  if taken = 0 ∧ dropped = 0 then
    c.failNext (if c.rest.isEmpty then .endInValue else .invalidNumber)
  else
    let c := c.advance dropped
    let exponent := exponent - taken
    match c.rest with
    | b :: _ =>
      if b = 101 ∨ b = 69 then readExponent c minus significand exponent
      else toFloat c minus significand exponent
    | [] => toFloat c minus significand exponent

/-- What follows an integer part that is held in full. -/
def readAfterInteger (c : Cursor) (minus : Bool) (significand : Nat) : Except JsonError (JsonNumber × Cursor) :=
  let whole : Except JsonError (JsonNumber × Cursor) :=
    if !minus then .ok (.natural significand, c)
    else if 0 < significand ∧ significand ≤ Power.two 63 then .ok (.negative significand, c)
    else .ok (.float (-(UInt64.ofNat significand).toFloat), c)
  match c.rest with
  | b :: _ =>
    if b = 46 then readDecimal c minus significand 0
    else if b = 101 ∨ b = 69 then readExponent c minus significand 0
    else whole
  | [] => whole

/-- A number past its sign. -/
def readNumber (c : Cursor) (minus : Bool) : Except JsonError (JsonNumber × Cursor) :=
  match c.rest with
  | [] => c.fail .endInValue
  | b :: _ =>
    if b = 48 then
      let c := c.advance 1
      match c.rest with
      | d :: _ => if isDigit d then c.failNext .invalidNumber else readAfterInteger c minus 0
      | [] => readAfterInteger c minus 0
    else if isDigit b then
      let (significand, _, c) := readFraction 0 0 c c.rest
      let dropped := (c.rest.takeWhile isDigit).length
      if dropped = 0 then readAfterInteger c minus significand
      else
        let c := c.advance dropped
        match c.rest with
        | b :: _ =>
          if b = 46 then readDecimal c minus significand dropped
          else if b = 101 ∨ b = 69 then readExponent c minus significand dropped
          else toFloat c minus significand dropped
        | [] => toFloat c minus significand dropped
    else (c.advance 1).fail .invalidNumber

/-! ## Strings -/

/-- Four hexadecimal digits. -/
def readHex (c : Cursor) : Except JsonError (Nat × Cursor) :=
  match c.rest with
  | a :: b :: d :: e :: _ =>
    let value (x : UInt8) := Hex.value? (Char.ofNat x.toNat)
    match value a, value b, value d, value e with
    | some a, some b, some d, some e => .ok (a * 4096 + b * 256 + d * 16 + e, c.advance 4)
    | _, _, _, _ => (c.advance 4).fail .invalidEscape
  | rest => (c.advance rest.length).fail .endInString

/-- One byte that has to come next after a leading surrogate. -/
def readPairByte (c : Cursor) (wanted : UInt8) : Except JsonError (Unit × Cursor) :=
  match c.rest with
  | [] => c.fail .endInString
  | b :: _ =>
    if b = wanted then .ok ((), c.advance 1) else (c.advance 1).fail .endOfHexEscape

/-- A character given by its number, behind the letter `u`. -/
def readUnicodeEscape (c : Cursor) : Except JsonError (Char × Cursor) := do
  let (n, c) ← readHex c
  if 0xDC00 ≤ n ∧ n ≤ 0xDFFF then c.fail .loneSurrogate
  else if n < 0xD800 ∨ 0xDBFF < n then return (Char.ofNat n, c)
  else
    let (_, c) ← readPairByte c 92
    let (_, c) ← readPairByte c 117
    let (low, c) ← readHex c
    if low < 0xDC00 ∨ 0xDFFF < low then c.fail .loneSurrogate
    else return (Char.ofNat (0x10000 + (n - 0xD800) * 0x400 + (low - 0xDC00)), c)

/-- A character behind a backslash. -/
def readEscape (c : Cursor) : Except JsonError (Char × Cursor) :=
  match c.rest with
  | [] => c.fail .endInString
  | b :: _ =>
    let c := c.advance 1
    match Char.ofNat b.toNat with
    | '"' => .ok ('"', c)
    | '\\' => .ok ('\\', c)
    | '/' => .ok ('/', c)
    | 'b' => .ok ('\x08', c)
    | 'f' => .ok ('\x0c', c)
    | 'n' => .ok ('\n', c)
    | 'r' => .ok ('\r', c)
    | 't' => .ok ('\t', c)
    | 'u' => readUnicodeEscape c
    | _ => c.fail .invalidEscape

/-- The rest of a string, whose bytes so far are held in reverse. -/
def readStringFrom (done : Bytes) (c : Cursor) : Nat → Except JsonError (String × Cursor)
  | 0 => c.fail .endInString
  | fuel + 1 =>
    match c.rest with
    | [] => c.fail .endInString
    | b :: _ =>
      let next := c.advance 1
      if b = 34 then
        match Utf8.decode? done.reverse with
        | some s => .ok (s, next)
        | none => next.fail .invalidCodePoint
      else if b = 92 then do
        let (ch, next) ← readEscape next
        readStringFrom ((Utf8.encode (String.singleton ch)).reverse ++ done) next fuel
      else if b < 32 then next.fail .controlCharacter
      else readStringFrom (b :: done) next fuel

/-- A string past its opening quote. -/
def readString (c : Cursor) : Except JsonError (String × Cursor) := readStringFrom [] c (c.rest.length + 1)

/-! ## Documents -/

/-- Whether a list or an object goes on, and the cursor at what comes
next. -/
def readSeparator (c : Cursor) (first : Bool) (close : UInt8) (atEnd missing : JsonFault) :
    Except JsonError (Bool × Cursor) :=
  let c := c.skipSpace
  match c.rest with
  | [] => c.failNext atEnd
  | b :: _ =>
    if b = close then .ok (false, c)
    else if first then .ok (true, c)
    else if b = 44 then
      let c := (c.advance 1).skipSpace
      match c.rest with
      | [] => c.failNext .endInValue
      | b :: _ => if b = close then c.failNext .trailingComma else .ok (true, c)
    else c.failNext missing

mutual

/-- A value at a depth that still allows `depth` levels. The fuel bounds
the steps and is never used up when it exceeds twice the bytes left. -/
def readValue (fuel : Nat) (depth : Nat) (c : Cursor) : Except JsonError (Json × Cursor) :=
  match fuel with
  | 0 => c.fail .endInValue
  | fuel + 1 =>
    let c := c.skipSpace
    match c.rest with
    | [] => c.failNext .endInValue
    | b :: _ =>
      let next := c.advance 1
      match Char.ofNat b.toNat with
      | 'n' => do let (_, c) ← readWord next [117, 108, 108]; return (.null, c)
      | 't' => do let (_, c) ← readWord next [114, 117, 101]; return (.bool true, c)
      | 'f' => do let (_, c) ← readWord next [97, 108, 115, 101]; return (.bool false, c)
      | '"' => do let (s, c) ← readString next; return (.string s, c)
      | '-' => do let (n, c) ← readNumber next true; return (.number n, c)
      | '[' =>
        if depth ≤ 1 then c.failNext .tooDeep
        else do
          let (items, c) ← readItems fuel (depth - 1) [] next
          return (.array items, c.advance 1)
      | '\x7b' =>
        if depth ≤ 1 then c.failNext .tooDeep
        else do
          let (members, c) ← readMembers fuel (depth - 1) [] next
          return (sorted members, c.advance 1)
      | _ =>
        if isDigit b then do let (n, c) ← readNumber c false; return (.number n, c)
        else c.failNext .expectedValue

/-- The items of an array up to its end, held in reverse. -/
def readItems (fuel : Nat) (depth : Nat) (done : List Json) (c : Cursor) : Except JsonError (List Json × Cursor) :=
  match fuel with
  | 0 => c.fail .endInList
  | fuel + 1 => do
    let (more, c) ← readSeparator c done.isEmpty 93 .endInList .expectedListCommaOrEnd
    if more then
      let (item, c) ← readValue fuel depth c
      readItems fuel depth (item :: done) c
    else return (done.reverse, c)

/-- The members of an object up to its end, held in reverse. -/
def readMembers (fuel : Nat) (depth : Nat) (done : List (String × Json)) (c : Cursor) :
    Except JsonError (List (String × Json) × Cursor) :=
  match fuel with
  | 0 => c.fail .endInObject
  | fuel + 1 => do
    let (more, c) ← readSeparator c done.isEmpty 125 .endInObject .expectedObjectCommaOrEnd
    if more then
      match c.rest with
      | 34 :: _ =>
        let (key, c) ← readString (c.advance 1)
        let c := c.skipSpace
        match c.rest with
        | 58 :: _ =>
          let (value, c) ← readValue fuel depth (c.advance 1)
          readMembers fuel depth ((key, value) :: done) c
        | [] => c.failNext .endInObject
        | _ => c.failNext .expectedColon
      | _ => c.failNext .keyNotString
    else return (done.reverse, c)

end

/-- How many levels a document may have, counted with the value inside. -/
def depthLimit : Nat := 128

/-- **The document that the bytes hold**, white space around it allowed. -/
def ofBytes (bytes : Bytes) : Except JsonError Json := do
  let (doc, c) ← readValue (2 * bytes.length + 4) depthLimit ⟨0, bytes⟩
  let c := c.skipSpace
  if c.rest.isEmpty then return doc else c.failNext .trailingCharacters

/-- The document that a text holds. -/
def ofText (text : String) : Except JsonError Json := ofBytes (Utf8.encode text)

end Json

end Remedy
