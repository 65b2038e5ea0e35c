import Remedy.Text.Letter
import Remedy.Text.Slice
/-!
# Java tokens

The text is divided into tokens with their byte spans. White space is
skipped and comments are tokens of their own. Words are not told apart
from keywords here: the grammar decides by context. A piece of text that
is no token becomes one of kind `unknown`, which no rule accepts.
-/

namespace Remedy

namespace Java

/-- The kinds of token. -/
inductive TokenKind where
  | word
  | decimalInteger
  | hexInteger
  | octalInteger
  | binaryInteger
  | decimalFloat
  | hexFloat
  | charLiteral
  | stringLiteral
  | sign
  | lineComment
  | blockComment
  | unknown
  | endOfText
deriving DecidableEq, Repr

/-- A piece of the text. -/
structure Token where
  kind : TokenKind
  text : String
  span : Span
deriving DecidableEq, Repr

namespace Token

/-- A comment. -/
def isComment (t : Token) : Bool := t.kind == .lineComment || t.kind == .blockComment

end Token

/-- The first character of a word. -/
def startsWord (c : Char) : Bool := c == '_' || c == '$' || Letter.isLetter c

/-- A further character of a word. -/
def continuesWord (c : Char) : Bool :=
  startsWord c || Letter.isMark c || c.toNat == 0xA2

/-- White space between tokens. -/
def isSpace (c : Char) : Bool := c == ' ' || (9 ≤ c.toNat && c.toNat ≤ 13)

/-- The signs of more than one character, longer ones first. -/
def longSigns : List String :=
  [">>>=", ">>>", ">>=", "<<=", "...", "->", "::", "++", "--", "&&", "||", "+=", "-=", "*=",
   "/=", "%=", "&=", "|=", "^=", "==", "!=", "<=", ">=", "<<", ">>"]

/-- The signs of one character. -/
def shortSigns : List Char :=
  ['(', ')', '\x7b', '\x7d', '[', ']', ';', ',', '.', '@', '=', '>', '<', '!', '~', '?', ':',
   '+', '-', '*', '/', '&', '|', '^', '%']

/-- The sign that a text starts with. -/
def sign? (cs : List Char) : Option (List Char) :=
  match longSigns.find? fun s => s.toList.isPrefixOf cs with
  | some s => some s.toList
  | none =>
    match cs with
    | c :: _ => if c ∈ shortSigns then some [c] else none
    | [] => none

/-! ## Numbers -/

/-- Digits of a class, in groups with underscores between them. Answers
how many characters they take. -/
def digitRun (isDigit : Char → Bool) (cs : List Char) : Nat :=
  let run := cs.takeWhile fun c => isDigit c || c == '_'
  match run with
  | c :: _ => if isDigit c then (run.reverse.dropWhile (· == '_')).length else 0
  | [] => 0

/-- A digit of base sixteen. -/
def isHexDigit (c : Char) : Bool :=
  c.isDigit || ('a' ≤ c && c ≤ 'f') || ('A' ≤ c && c ≤ 'F')

/-- An exponent behind one of two letters: its length, or nothing. -/
def exponentLength (letters : List Char) : List Char → Nat
  | e :: cs =>
    if e ∈ letters then
      let signed := match cs with
        | '+' :: _ | '-' :: _ => 1
        | _ => 0
      let digits := digitRun Char.isDigit (cs.drop signed)
      if digits = 0 then 0 else 1 + signed + digits
    else 0
  | [] => 0

/-- One if the text starts with one of the letters, else nothing. -/
def suffixLength (letters : List Char) : List Char → Nat
  | c :: _ => if c ∈ letters then 1 else 0
  | [] => 0

/-- The letters that end a long integer. -/
def longSuffix : List Char := ['l', 'L']

/-- The letters that end a floating-point number. -/
def floatSuffix : List Char := ['f', 'F', 'd', 'D']

/-- A number of base sixteen behind `0x`. -/
def hexNumber (cs : List Char) : TokenKind × Nat :=
  let whole := digitRun isHexDigit cs
  let after := cs.drop whole
  let point := suffixLength ['.'] after
  let fraction := if point = 0 then 0 else digitRun isHexDigit (after.drop 1)
  let mantissa := whole + (if whole = 0 ∧ fraction = 0 then 0 else point + fraction)
  let exponent := exponentLength ['p', 'P'] (cs.drop mantissa)
  if mantissa = 0 then (.decimalInteger, 1)
  else if exponent ≠ 0 then
    let size := mantissa + exponent
    (.hexFloat, 2 + size + suffixLength floatSuffix (cs.drop size))
  else if mantissa = whole then
    (.hexInteger, 2 + whole + suffixLength longSuffix after)
  else (.hexFloat, 2 + mantissa)

/-- A number: its kind and length. The text starts with a digit, or with a
point and a digit. -/
def number (cs : List Char) : TokenKind × Nat :=
  match cs with
  | '0' :: 'x' :: rest | '0' :: 'X' :: rest => hexNumber rest
  | '0' :: 'b' :: rest | '0' :: 'B' :: rest =>
    let digits := digitRun (fun c => c == '0' || c == '1') rest
    if digits = 0 then (.decimalInteger, 1)
    else (.binaryInteger, 2 + digits + suffixLength longSuffix (rest.drop digits))
  | _ =>
    let whole := digitRun Char.isDigit cs
    let after := cs.drop whole
    let point := suffixLength ['.'] after
    let fraction := if point = 0 then 0 else digitRun Char.isDigit (after.drop 1)
    let mantissa := whole + point + fraction
    let exponent := exponentLength ['e', 'E'] (cs.drop mantissa)
    let size := mantissa + exponent
    let suffix := suffixLength floatSuffix (cs.drop size)
    if point + exponent + suffix ≠ 0 then (.decimalFloat, size + suffix)
    else if cs.head? = some '0' then
      let octal := digitRun (fun c => '0' ≤ c && c ≤ '7') (cs.drop 1)
      let kind := if octal = 0 then TokenKind.decimalInteger else .octalInteger
      (kind, 1 + octal + suffixLength longSuffix (cs.drop (1 + octal)))
    else (.decimalInteger, whole + suffixLength longSuffix after)

/-! ## Texts and comments -/

/-- The length of a quoted text behind its opening quote, or nothing if it
does not end. -/
def quotedLength? (size : Nat) : List Char → Option Nat
  | '"' :: _ => some (size + 1)
  | '\\' :: _ :: rest => quotedLength? (size + 2) rest
  | '\\' :: [] => none
  | _ :: rest => quotedLength? (size + 1) rest
  | [] => none

/-- The length of a text block behind its three opening quotes. -/
def blockLength? (size : Nat) : List Char → Option Nat
  | '"' :: '"' :: '"' :: _ => some (size + 3)
  | '\\' :: _ :: rest => blockLength? (size + 2) rest
  | '\\' :: [] => none
  | _ :: rest => blockLength? (size + 1) rest
  | [] => none

/-- The length of a character literal behind its opening quote. -/
def charLength? (size : Nat) : List Char → Option Nat
  | '\'' :: _ => if size = 0 then none else some (size + 1)
  | '\\' :: _ :: rest => charLength? (size + 2) rest
  | '\\' :: [] => none
  | '\n' :: _ => none
  | _ :: rest => charLength? (size + 1) rest
  | [] => none

/-- The length of a block comment behind its opening. -/
def commentLength? (size : Nat) : List Char → Option Nat
  | '*' :: '/' :: _ => some (size + 2)
  | _ :: rest => commentLength? (size + 1) rest
  | [] => none

/-- A token of a known length behind an opening, or an unknown one that
takes the rest. -/
def closed (kind : TokenKind) (opening : Nat) (length : Option Nat) (cs : List Char) :
    TokenKind × Nat :=
  match length with
  | some n => (kind, opening + n)
  | none => (.unknown, cs.length)

/-- The token that a text starts with: its kind and its length, at least
one character. -/
def first (cs : List Char) : TokenKind × Nat :=
  match cs with
  | '/' :: '/' :: rest => (.lineComment, 2 + (rest.takeWhile (· ≠ '\n')).length)
  | '/' :: '*' :: rest => closed .blockComment 2 (commentLength? 0 rest) cs
  | '"' :: '"' :: '"' :: rest => closed .stringLiteral 3 (blockLength? 0 rest) cs
  | '"' :: rest => closed .stringLiteral 1 (quotedLength? 0 rest) cs
  | '\'' :: rest => closed .charLiteral 1 (charLength? 0 rest) cs
  | '.' :: d :: _ =>
    if d.isDigit then number cs
    else
      match sign? cs with
      | some s => (.sign, s.length)
      | none => (.unknown, 1)
  | c :: rest =>
    if startsWord c then (.word, 1 + (rest.takeWhile continuesWord).length)
    else if c.isDigit then number cs
    else
      match sign? cs with
      | some s => (.sign, s.length)
      | none => (.unknown, 1)
  | [] => (.endOfText, 0)

/-- The tokens of a text, held in reverse. The fuel is the length of the
text. -/
def tokensFrom (done : List Token) (offset : Nat) (cs : List Char) : Nat → List Token
  | 0 => (⟨.endOfText, "", ⟨offset, offset⟩⟩ :: done).reverse
  | fuel + 1 =>
    match cs with
    | [] => (⟨.endOfText, "", ⟨offset, offset⟩⟩ :: done).reverse
    | c :: rest =>
      if isSpace c then tokensFrom done (offset + 1) rest fuel
      else
        let (kind, length) := first cs
        let text := cs.take length
        let stop := offset + Text.byteSize text
        tokensFrom (⟨kind, String.ofList text, ⟨offset, stop⟩⟩ :: done) stop (cs.drop length) fuel

/-- **The tokens of a text**, ended by one of kind `endOfText`. A byte
order mark at the start is skipped. -/
def tokens (text : String) : List Token :=
  match text.toList with
  | '\uFEFF' :: cs => tokensFrom [] 3 cs (cs.length + 1)
  | cs => tokensFrom [] 0 cs (cs.length + 1)

end Java

end Remedy
