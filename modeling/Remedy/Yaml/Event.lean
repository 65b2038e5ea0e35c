import Remedy.Yaml.Token
/-!
# Events

`events` reads tokens as the structure of documents: where collections
start and end, and the scalars and aliases between. The reader keeps a
stack of what it expects next. A node that is left out is an empty plain
scalar. The events before a fault are answered with the fault.
-/

namespace Remedy

namespace Yaml

/-- What a node has beside its content. -/
structure Decoration where
  anchor : Option String
  tag : Option Bytes
deriving DecidableEq, Repr

/-- Neither an anchor nor a tag. -/
def Decoration.none : Decoration := ⟨.none, .none⟩

/-- What an event is. -/
inductive EventKind where
  | streamEnd
  | documentStart
  | documentEnd
  | alias (name : String)
  | scalar (decoration : Decoration) (style : Style) (text : String)
  | sequenceStart (decoration : Decoration)
  | sequenceEnd
  | mappingStart (decoration : Decoration)
  | mappingEnd
deriving DecidableEq, Repr

/-- An event with its place. -/
structure Event where
  kind : EventKind
  mark : Mark
deriving Repr

/-- What is expected next. A collection has its start with it. -/
inductive Expected where
  | firstDocument
  | document
  | documentContent
  | documentEnd
  | blockNode
  | blockFirstEntry
  | blockEntry (start : Mark)
  | bareEntry
  | blockFirstKey
  | blockKey (start : Mark)
  | blockValue (start : Mark)
  | flowFirstEntry
  | flowEntry (start : Mark)
  | flowPairKey (start : Mark)
  | flowPairValue (start : Mark)
  | flowPairEnd (start : Mark)
  | flowFirstKey
  | flowKey (start : Mark)
  | flowValue (start : Mark)
  | flowNoValue (start : Mark)
  | nothing
deriving DecidableEq, Repr

/-- Where the reading stands: the tokens ahead and the fault after them,
what is expected now and later, and what handles mean. -/
structure EventReader where
  tokens : List Token
  fault : Option Fault
  now : Expected
  later : List Expected
  handles : List (String × Bytes)
deriving Repr

/-- The meanings that handles have without a directive. -/
def defaultHandles : List (String × Bytes) :=
  [("!", Utf8.encode "!"), ("!!", Utf8.encode "tag:yaml.org,2002:")]

namespace EventReader

/-- One step of the reader. -/
abbrev Step := Except Fault (Event × EventReader)

/-- The token ahead, or the fault. Past the end there is the end. -/
def peek (r : EventReader) : Except Fault Token :=
  match r.tokens, r.fault with
  | token :: _, _ => .ok token
  | [], some fault => .error fault
  | [], none => .ok ⟨.streamEnd, .origin, .origin⟩

/-- Past the token ahead. -/
def pass (r : EventReader) : EventReader := { r with tokens := r.tokens.tail }

/-- Expects something else now. -/
def expecting (r : EventReader) (now : Expected) : EventReader := { r with now := now }

/-- Expects something after what comes first. -/
def thenExpecting (r : EventReader) (next : Expected) : EventReader :=
  { r with later := next :: r.later }

/-- What comes first is done. -/
def done (r : EventReader) : EventReader :=
  match r.later with
  | [] => r.expecting .nothing
  | next :: later => { r with now := next, later := later }

/-- A node that is left out, at a place. -/
def empty (r : EventReader) (mark : Mark) : Step :=
  .ok (⟨.scalar .none .plain "", mark⟩, r)

/-! ## Nodes -/

/-- The decoration of a node as written, with the places of its start and
its tag. -/
structure Decorated where
  anchor : Option String
  tag : Option (TagName × Mark)
  start : Mark
deriving Repr

/-- Reads an anchor and a tag in either order. -/
def decoration (r : EventReader) : Except Fault (Decorated × EventReader) := do
  let first ← r.peek
  match first.kind with
  | .anchor name =>
    let r := r.pass
    let second ← r.peek
    match second.kind with
    | .tag text => return (⟨some name, some (text, second.start), first.start⟩, r.pass)
    | _ => return (⟨some name, none, first.start⟩, r)
  | .tag text =>
    let r := r.pass
    let second ← r.peek
    match second.kind with
    | .anchor name => return (⟨some name, some (text, first.start), first.start⟩, r.pass)
    | _ => return (⟨none, some (text, first.start), first.start⟩, r)
  | _ => return (⟨none, none, first.start⟩, r)

/-- The tag that a name means. -/
def resolveTag (r : EventReader) (d : Decorated) : Except Fault (Option Bytes) :=
  match d.tag with
  | none => .ok none
  | some (name, mark) =>
    if name.handle.isEmpty then .ok (some name.text)
    else
      match r.handles.lookup name.handle with
      | some meaning => .ok (some (meaning ++ name.text))
      | none => .error ⟨.undefinedHandle, mark, some (.node, d.start)⟩

/-- The tag of a scalar: `!` alone is none. -/
def scalarTag (tag : Option Bytes) : Option Bytes := tag.filter (· ≠ Utf8.encode "!")

/-- **Reads the start of a node.** A sequence whose dashes stand below the
key of a mapping opens without a token of its own. -/
def node (r : EventReader) (block bare : Bool) : Step := do
  let first ← r.peek
  if let .alias name := first.kind then
    return (⟨.alias name, first.start⟩, r.done.pass)
  let (d, r) ← r.decoration
  let token ← r.peek
  let tag ← r.resolveTag d
  let decoration : Decoration := ⟨d.anchor, tag⟩
  match token.kind with
  | .scalar style text =>
    return (⟨.scalar ⟨d.anchor, scalarTag tag⟩ style text, d.start⟩, r.done.pass)
  | .flowSequenceStart => return (⟨.sequenceStart decoration, d.start⟩, r.expecting .flowFirstEntry)
  | .flowMappingStart => return (⟨.mappingStart decoration, d.start⟩, r.expecting .flowFirstKey)
  | kind =>
    if bare ∧ kind = .blockEntry then
      return (⟨.sequenceStart decoration, d.start⟩, r.expecting .bareEntry)
    else if block ∧ kind = .blockSequenceStart then
      return (⟨.sequenceStart decoration, d.start⟩, r.expecting .blockFirstEntry)
    else if block ∧ kind = .blockMappingStart then
      return (⟨.mappingStart decoration, d.start⟩, r.expecting .blockFirstKey)
    else if d.anchor.isSome ∨ d.tag.isSome then
      return (⟨.scalar decoration .plain "", d.start⟩, r.done)
    else
      let activity := if block then Activity.blockNode else .flowNode
      throw ⟨.expectedContent, token.start, some (activity, d.start)⟩

/-- Reads a node after the token ahead, unless one of some kinds comes
there; then the node is left out. -/
def nodeOrEmpty (r : EventReader) (block bare : Bool) (next : Expected) (stops : List TokenKind)
    (mark : Token → Mark) : Step := do
  let token ← r.peek
  if stops.contains token.kind then (r.expecting next).empty (mark token)
  else (r.thenExpecting next).node block bare

/-- The end of a collection, at the token ahead. -/
def close (r : EventReader) (kind : EventKind) (token : Token) : Step :=
  .ok (⟨kind, token.start⟩, r.done.pass)

/-! ## Block collections -/

/-- An entry of a block sequence, or its end. -/
def blockEntry (r : EventReader) (start : Mark) : Step := do
  let token ← r.peek
  match token.kind with
  | .blockEntry =>
    r.pass.nodeOrEmpty true false (.blockEntry start) [.blockEntry, .blockEnd] fun _ => token.stop
  | .blockEnd => r.close .sequenceEnd token
  | _ => throw ⟨.expectedDash, token.start, some (.blockSequence, start)⟩

/-- An entry of a sequence below a key, or its end. -/
def bareEntry (r : EventReader) : Step := do
  let token ← r.peek
  match token.kind with
  | .blockEntry =>
    r.pass.nodeOrEmpty true false .bareEntry [.blockEntry, .key, .value, .blockEnd]
      fun _ => token.stop
  | _ => return (⟨.sequenceEnd, token.start⟩, r.done)

/-- A key of a block mapping, or its end. -/
def blockKey (r : EventReader) (start : Mark) : Step := do
  let token ← r.peek
  match token.kind with
  | .key =>
    r.pass.nodeOrEmpty true true (.blockValue start) [.key, .value, .blockEnd] fun _ => token.stop
  | .blockEnd => r.close .mappingEnd token
  | _ => throw ⟨.expectedKey, token.start, some (.blockMapping, start)⟩

/-- A value of a block mapping. -/
def blockValue (r : EventReader) (start : Mark) : Step := do
  let token ← r.peek
  match token.kind with
  | .value =>
    r.pass.nodeOrEmpty true true (.blockKey start) [.key, .value, .blockEnd] fun _ => token.stop
  | _ => (r.expecting (.blockKey start)).empty token.start

/-! ## Flow collections -/

/-- What may not follow in place of a node in brackets. -/
def sequenceStops : List TokenKind := [.flowEntry, .flowSequenceEnd]

/-- What may not follow in place of a node in braces. -/
def mappingStops : List TokenKind := [.flowEntry, .flowMappingEnd]

/-- Passes the comma before an entry that is not the first. -/
def separated (r : EventReader) (first : Bool) (stop : TokenKind) (fault : Fault) :
    Except Fault EventReader := do
  let token ← r.peek
  if first ∨ token.kind = stop then return r
  else if token.kind = .flowEntry then return r.pass
  else throw { fault with mark := token.start }

/-- An entry in brackets, or their end. An entry that is a pair of a key
and a value is a mapping. -/
def flowEntry (r : EventReader) (start : Mark) (first : Bool) : Step := do
  let r ← r.separated first .flowSequenceEnd
    ⟨.expectedCommaOrBracket, start, some (.flowSequence, start)⟩
  let token ← r.peek
  match token.kind with
  | .flowSequenceEnd => r.close .sequenceEnd token
  | .key => return (⟨.mappingStart .none, token.start⟩, r.pass.expecting (.flowPairKey start))
  | _ => (r.thenExpecting (.flowEntry start)).node false false

/-- The key of a pair in brackets. If it is left out, so is the token
ahead. -/
def flowPairKey (r : EventReader) (start : Mark) : Step := do
  let token ← r.peek
  if (.value :: sequenceStops).contains token.kind then
    (r.pass.expecting (.flowPairValue start)).empty token.stop
  else (r.thenExpecting (.flowPairValue start)).node false false

/-- The value of a pair in brackets. -/
def flowPairValue (r : EventReader) (start : Mark) : Step := do
  let token ← r.peek
  match token.kind with
  | .value => r.pass.nodeOrEmpty false false (.flowPairEnd start) sequenceStops Token.start
  | _ => (r.expecting (.flowPairEnd start)).empty token.start

/-- The end of a pair in brackets. -/
def flowPairEnd (r : EventReader) (start : Mark) : Step := do
  let token ← r.peek
  return (⟨.mappingEnd, token.start⟩, r.expecting (.flowEntry start))

/-- A key in braces, or their end. -/
def flowKey (r : EventReader) (start : Mark) (first : Bool) : Step := do
  let r ← r.separated first .flowMappingEnd
    ⟨.expectedCommaOrBrace, start, some (.flowMapping, start)⟩
  let token ← r.peek
  match token.kind with
  | .flowMappingEnd => r.close .mappingEnd token
  | .key =>
    r.pass.nodeOrEmpty false false (.flowValue start) (.value :: mappingStops) Token.start
  | _ => (r.thenExpecting (.flowNoValue start)).node false false

/-- A value in braces. -/
def flowValue (r : EventReader) (start : Mark) : Step := do
  let token ← r.peek
  match token.kind with
  | .value => r.pass.nodeOrEmpty false false (.flowKey start) mappingStops Token.start
  | _ => (r.expecting (.flowKey start)).empty token.start

/-! ## Documents -/

/-- Reads the directives before a document. -/
def directives (r : EventReader) : Nat → Bool → Except Fault EventReader
  | 0, _ => .ok r
  | fuel + 1, versionTold => do
    let token ← r.peek
    match token.kind with
    | .directive (.version major minor) =>
      if versionTold then throw ⟨.repeatedVersion, token.start, none⟩
      if major ≠ 1 ∨ (minor ≠ 1 ∧ minor ≠ 2) then
        throw ⟨.incompatibleVersion, token.start, none⟩
      r.pass.directives fuel true
    | .directive (.tag handle meaning) =>
      if (r.handles.lookup handle).isSome then throw ⟨.repeatedHandle, token.start, none⟩
      { r.pass with handles := r.handles ++ [(handle, meaning)] }.directives fuel versionTold
    | _ => return { r with handles := r.handles ++ defaultHandles }

/-- Whether a document that starts with a token has no mark of its own. -/
def startsBare : TokenKind → Bool
  | .directive _ | .documentStart | .streamEnd => false
  | _ => true

/-- The start of a document, or the end of the stream. Only the first
document may do without a mark. -/
def document (r : EventReader) (first : Bool) : Step := do
  let r := if first then r else { r with tokens := r.tokens.dropWhile (·.kind = .documentEnd) }
  let r := { r with handles := [] }
  let token ← r.peek
  if first ∧ startsBare token.kind then
    let r := { r with handles := defaultHandles }
    return (⟨.documentStart, token.start⟩, (r.thenExpecting .documentEnd).expecting .blockNode)
  if token.kind = .streamEnd then
    return (⟨.streamEnd, token.start⟩, r.pass.expecting .nothing)
  let r ← r.directives (r.tokens.length + 1) false
  let mark ← r.peek
  if mark.kind ≠ .documentStart then throw ⟨.expectedDocumentStart, mark.start, none⟩
  return (⟨.documentStart, token.start⟩,
    (r.pass.thenExpecting .documentEnd).expecting .documentContent)

/-- The content after the mark of a document. -/
def documentContent (r : EventReader) : Step := do
  let token ← r.peek
  match token.kind with
  | .directive _ | .documentStart | .documentEnd | .streamEnd => r.done.empty token.start
  | _ => r.node true false

/-- The end of a document. -/
def documentEnd (r : EventReader) : Step := do
  let token ← r.peek
  let r := if token.kind = .documentEnd then r.pass else r
  return (⟨.documentEnd, token.start⟩, r.expecting .document)

/-- The next event. -/
def step (r : EventReader) : Step :=
  match r.now with
  | .firstDocument => r.document true
  | .document => r.document false
  | .documentContent => r.documentContent
  | .documentEnd => r.documentEnd
  | .blockNode => r.node true false
  | .blockFirstEntry => do r.pass.blockEntry (← r.peek).start
  | .blockEntry start => r.blockEntry start
  | .bareEntry => r.bareEntry
  | .blockFirstKey => do r.pass.blockKey (← r.peek).start
  | .blockKey start => r.blockKey start
  | .blockValue start => r.blockValue start
  | .flowFirstEntry => do r.pass.flowEntry (← r.peek).start true
  | .flowEntry start => r.flowEntry start false
  | .flowPairKey start => r.flowPairKey start
  | .flowPairValue start => r.flowPairValue start
  | .flowPairEnd start => r.flowPairEnd start
  | .flowFirstKey => do r.pass.flowKey (← r.peek).start true
  | .flowKey start => r.flowKey start false
  | .flowValue start => r.flowValue start
  | .flowNoValue start => do (r.expecting (.flowKey start)).empty (← r.peek).start
  | .nothing => .ok (⟨.streamEnd, .origin⟩, r)

/-- Reads events until the stream ends. -/
def run : Nat → EventReader → List Event × Option Fault
  | 0, _ => ([], none)
  | fuel + 1, r =>
    match r.step with
    | .error fault => ([], some fault)
    | .ok (event, r) =>
      if event.kind = .streamEnd then ([event], none)
      else
        let (later, fault) := run fuel r
        (event :: later, fault)

end EventReader

/-- How many events there are at most for a number of tokens. -/
def eventLimit (tokens : Nat) : Nat := 4 * tokens + 8

/-- **The events of a stream**, up to a fault if it has one. -/
def events (stream : String) : List Event × Option Fault :=
  let (tokens, fault) := tokens stream
  EventReader.run (eventLimit tokens.length) ⟨tokens, fault, .firstDocument, [], []⟩

end Yaml

end Remedy
