/-!
# Faults in a YAML stream

A fault has a problem and where it shows, and may tell what was being read
at the time and where that began. Lines and columns are told from one; the
first character of a stream is told by no place at all.
-/

namespace Remedy

namespace Yaml

/-- A place in a stream: the characters before it, and its line and
column, from zero. -/
structure Mark where
  index : Nat
  line : Nat
  column : Nat
deriving DecidableEq, Repr, Inhabited

namespace Mark

/-- The first place of a stream. -/
def origin : Mark := ⟨0, 0, 0⟩

/-- Whether a place is told in messages. -/
def isTold (m : Mark) : Bool := m.line ≠ 0 || m.column ≠ 0

/-- Whether two places are told alike. -/
def sameSpot (a b : Mark) : Bool := a.line = b.line && a.column = b.column

/-- How a message tells of a place, if it does. -/
def told (m : Mark) : String :=
  if m.isTold then s!" at line {m.line + 1} column {m.column + 1}" else ""

end Mark

/-- What is wrong with a stream. -/
inductive Problem where
  | valueNotAllowed
  | keyNotAllowed
  | entryNotAllowed
  | noTokenStart
  | expectedColon
  | documentIndicator
  | endOfStream
  | unknownEscape
  | expectedHexDigit
  | badCodePoint
  | expectedName
  | zeroIndentation
  | expectedLineEnd
  | tabForIndentation
  | tabInIndentation
  | unexpectedColon
  | expectedSpace
  | expectedSpaceOrLineEnd
  | expectedTagEnd
  | expectedTagMark
  | expectedTagText
  | expectedOctet
  | badLeadingOctet
  | badTrailingOctet
  | expectedDirectiveName
  | badDirectiveName
  | unknownDirective
  | expectedVersion
  | expectedVersionPoint
  | longVersion
  | expectedDocumentStart
  | repeatedVersion
  | incompatibleVersion
  | repeatedHandle
  | expectedContent
  | undefinedHandle
  | expectedDash
  | expectedKey
  | expectedCommaOrBracket
  | expectedCommaOrBrace
  /-- A control character, after so many bytes. -/
  | controlCharacter (offset : Nat)
deriving DecidableEq, Repr

/-- The wording of a problem. -/
def Problem.message : Problem → String
  | .valueNotAllowed => "mapping values are not allowed in this context"
  | .keyNotAllowed => "mapping keys are not allowed in this context"
  | .entryNotAllowed => "block sequence entries are not allowed in this context"
  | .noTokenStart => "found character that cannot start any token"
  | .expectedColon => "could not find expected ':'"
  | .documentIndicator => "found unexpected document indicator"
  | .endOfStream => "found unexpected end of stream"
  | .unknownEscape => "found unknown escape character"
  | .expectedHexDigit => "did not find expected hexdecimal number"
  | .badCodePoint => "found invalid Unicode character escape code"
  | .expectedName => "did not find expected alphabetic or numeric character"
  | .zeroIndentation => "found an indentation indicator equal to 0"
  | .expectedLineEnd => "did not find expected comment or line break"
  | .tabForIndentation => "found a tab character where an indentation space is expected"
  | .tabInIndentation => "found a tab character that violates indentation"
  | .unexpectedColon => "found unexpected ':'"
  | .expectedSpace => "did not find expected whitespace"
  | .expectedSpaceOrLineEnd => "did not find expected whitespace or line break"
  | .expectedTagEnd => "did not find the expected '>'"
  | .expectedTagMark => "did not find expected '!'"
  | .expectedTagText => "did not find expected tag URI"
  | .expectedOctet => "did not find URI escaped octet"
  | .badLeadingOctet => "found an incorrect leading UTF-8 octet"
  | .badTrailingOctet => "found an incorrect trailing UTF-8 octet"
  | .expectedDirectiveName => "could not find expected directive name"
  | .badDirectiveName => "found unexpected non-alphabetical character"
  | .unknownDirective => "found unknown directive name"
  | .expectedVersion => "did not find expected version number"
  | .expectedVersionPoint => "did not find expected digit or '.' character"
  | .longVersion => "found extremely long version number"
  | .expectedDocumentStart => "did not find expected <document start>"
  | .repeatedVersion => "found duplicate %YAML directive"
  | .incompatibleVersion => "found incompatible YAML document"
  | .repeatedHandle => "found duplicate %TAG directive"
  | .expectedContent => "did not find expected node content"
  | .undefinedHandle => "found undefined tag handle"
  | .expectedDash => "did not find expected '-' indicator"
  | .expectedKey => "did not find expected key"
  | .expectedCommaOrBracket => "did not find expected ',' or ']'"
  | .expectedCommaOrBrace => "did not find expected ',' or '\x7d'"
  | .controlCharacter offset =>
    if offset = 0 then "control characters are not allowed"
    else s!"control characters are not allowed at position {offset}"

/-- What is being read. -/
inductive Activity where
  | nextToken
  | simpleKey
  | quotedScalar
  | escape
  | plainScalar
  | blockScalar
  | anchor
  | alias
  | tag
  | tagText
  | directive
  | versionDirective
  | tagDirective
  | directiveHandle
  | directiveHandleEnd
  | directiveTagText
  | node
  | blockNode
  | flowNode
  | blockSequence
  | blockMapping
  | flowSequence
  | flowMapping
deriving DecidableEq, Repr

/-- How a message tells what is being read. -/
def Activity.message : Activity → String
  | .nextToken => "while scanning for the next token"
  | .simpleKey => "while scanning a simple key"
  | .quotedScalar => "while scanning a quoted scalar"
  | .escape => "while parsing a quoted scalar"
  | .plainScalar => "while scanning a plain scalar"
  | .blockScalar => "while scanning a block scalar"
  | .anchor => "while scanning an anchor"
  | .alias => "while scanning an alias"
  | .tag => "while scanning a tag"
  | .tagText => "while parsing a tag"
  | .directive => "while scanning a directive"
  | .versionDirective => "while scanning a %YAML directive"
  | .tagDirective => "while scanning a %TAG directive"
  | .directiveHandle => "while scanning a tag directive"
  | .directiveHandleEnd => "while parsing a tag directive"
  | .directiveTagText => "while parsing a %TAG directive"
  | .node => "while parsing a node"
  | .blockNode => "while parsing a block node"
  | .flowNode => "while parsing a flow node"
  | .blockSequence => "while parsing a block collection"
  | .blockMapping => "while parsing a block mapping"
  | .flowSequence => "while parsing a flow sequence"
  | .flowMapping => "while parsing a flow mapping"

/-- A fault of a stream: the problem and its place, and what was being
read, with its start. -/
structure Fault where
  problem : Problem
  mark : Mark
  context : Option (Activity × Mark)
deriving DecidableEq, Repr

/-- The message of a fault. The start of what was being read is told if it
is another place than that of the problem. -/
def Fault.message (f : Fault) : String :=
  let shown := f.problem.message ++ f.mark.told
  match f.context with
  | none => shown
  | some (activity, start) =>
    let since := if start.sameSpot f.mark then "" else start.told
    s!"{shown}, {activity.message}{since}"

end Yaml

end Remedy
