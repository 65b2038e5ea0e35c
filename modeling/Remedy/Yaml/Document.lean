import Remedy.Yaml.Event
/-!
# Documents

`Document.first` makes a tree of the first document of a stream. Where the
stream breaks off, the tree has a missing node with the fault, so that what
comes before the fault can be read. An alias is kept as the number of an
anchor; a node carries the number of its own.
-/

namespace Remedy

namespace Yaml

/-- Why a stream has no good document. -/
inductive StreamError where
  | malformed (fault : Fault)
  | unknownAnchor (mark : Mark)
deriving DecidableEq, Repr

/-- The message of an error. -/
def StreamError.message : StreamError → String
  | .malformed fault => fault.message
  | .unknownAnchor mark => "unknown anchor" ++ mark.told

/-- What a node has beside its content: its place, the number of its
anchor, and its tag. -/
structure Head where
  mark : Mark
  anchor : Option Nat
  tag : Option Bytes
deriving Repr

/-- A node of a document. -/
inductive Node where
  | scalar (head : Head) (style : Style) (text : String)
  | sequence (head : Head) (items : List Node)
  | mapping (head : Head) (entries : List (Node × Node))
  | alias (anchor : Nat)
  | missing (error : StreamError)
deriving Repr

namespace Node

/-- An empty plain scalar. -/
def empty (mark : Mark) : Node := .scalar ⟨mark, none, none⟩ .plain ""

mutual

/-- The error of the first missing node. -/
def error? : Node → Option StreamError
  | .missing e => some e
  | .sequence _ items => errorInItems? items
  | .mapping _ entries => errorInEntries? entries
  | .scalar .. | .alias _ => none

/-- The error of the first missing node among items. -/
def errorInItems? : List Node → Option StreamError
  | [] => none
  | item :: rest => (error? item).or (errorInItems? rest)

/-- The error of the first missing node among entries. -/
def errorInEntries? : List (Node × Node) → Option StreamError
  | [] => none
  | (key, value) :: rest => ((error? key).or (error? value)).or (errorInEntries? rest)

end

mutual

/-- The last node with the number of an anchor, counted by where nodes
start. -/
def anchored? (anchor : Nat) : Node → Option Node
  | .scalar head style text =>
    if head.anchor = some anchor then some (.scalar head style text) else none
  | .sequence head items =>
    (anchoredInItems? anchor items).or
      (if head.anchor = some anchor then some (.sequence head items) else none)
  | .mapping head entries =>
    (anchoredInEntries? anchor entries).or
      (if head.anchor = some anchor then some (.mapping head entries) else none)
  | .alias _ | .missing _ => none

/-- The last such node among items. -/
def anchoredInItems? (anchor : Nat) : List Node → Option Node
  | [] => none
  | item :: rest => (anchoredInItems? anchor rest).or (anchored? anchor item)

/-- The last such node among entries. -/
def anchoredInEntries? (anchor : Nat) : List (Node × Node) → Option Node
  | [] => none
  | (key, value) :: rest =>
    (anchoredInEntries? anchor rest).or ((anchored? anchor value).or (anchored? anchor key))

end

end Node

/-- A collection that is still open, with its content in reverse. A
mapping may have a key that waits for its value. -/
inductive OpenNode where
  | sequence (head : Head) (items : List Node)
  | mapping (head : Head) (entries : List (Node × Node)) (key : Option Node)
deriving Repr

namespace OpenNode

/-- Adds a node to an open collection. -/
def add (node : Node) : OpenNode → OpenNode
  | .sequence head items => .sequence head (node :: items)
  | .mapping head entries none => .mapping head entries (some node)
  | .mapping head entries (some key) => .mapping head ((key, node) :: entries) none

/-- The collection with the content it has. -/
def close : OpenNode → Node
  | .sequence head items => .sequence head items.reverse
  | .mapping head entries none => .mapping head entries.reverse
  | .mapping head entries (some key) => .mapping head ((key, .empty head.mark) :: entries).reverse

end OpenNode

/-- A document in the making: the open collections, innermost first, the
finished root, and the numbers of the anchors so far. -/
structure Draft where
  opened : List OpenNode
  root : Option Node
  anchors : List (String × Nat)
deriving Repr

namespace Draft

/-- Puts a node where it belongs. -/
def add (d : Draft) (node : Node) : Draft :=
  match d.opened with
  | [] => { d with root := some node }
  | top :: rest => { d with opened := top.add node :: rest }

/-- Closes the innermost collection. -/
def close (d : Draft) : Draft :=
  match d.opened with
  | [] => d
  | top :: rest => { d with opened := rest }.add top.close

/-- The head of a node. The number of an anchor is how many names there
are so far; a name that comes again takes its new number. -/
def head (d : Draft) (decoration : Decoration) (mark : Mark) : Head × Draft :=
  match decoration.anchor with
  | none => (⟨mark, none, decoration.tag⟩, d)
  | some name =>
    let number := d.anchors.length
    let anchors :=
      if (d.anchors.lookup name).isSome then
        d.anchors.map fun (n, old) => (n, if n = name then number else old)
      else d.anchors ++ [(name, number)]
    (⟨mark, some number, decoration.tag⟩, { d with anchors := anchors })

/-- Takes in an event. -/
def take (d : Draft) (event : Event) : Except StreamError Draft :=
  match event.kind with
  | .alias name =>
    match d.anchors.lookup name with
    | some number => .ok (d.add (.alias number))
    | none => .error (.unknownAnchor event.mark)
  | .scalar decoration style text =>
    let (head, d) := d.head decoration event.mark
    .ok (d.add (.scalar head style text))
  | .sequenceStart decoration =>
    let (head, d) := d.head decoration event.mark
    .ok { d with opened := .sequence head [] :: d.opened }
  | .mappingStart decoration =>
    let (head, d) := d.head decoration event.mark
    .ok { d with opened := .mapping head [] none :: d.opened }
  | .sequenceEnd | .mappingEnd => .ok d.close
  | .documentStart | .documentEnd | .streamEnd => .ok d

/-- Closes what is open, with a missing node in each place. -/
def breakOff (d : Draft) (error : StreamError) : Draft :=
  let close (inner : Node) : OpenNode → Node
    | .sequence head items => .sequence head (inner :: items).reverse
    | .mapping head entries none => .mapping head ((inner, .missing error) :: entries).reverse
    | .mapping head entries (some key) => .mapping head ((key, inner) :: entries).reverse
  match d.root with
  | some _ => d
  | none => { d with opened := [], root := some (d.opened.foldl close (.missing error)) }

/-- Takes in events up to the end of a document. Answers the draft, the
error, and the events after the document. -/
def takeAll : Draft → List Event → Draft × Option StreamError × List Event
  | d, [] => (d, none, [])
  | d, event :: rest =>
    if event.kind = .documentEnd then (d, none, rest)
    else
      match d.take event with
      | .error e => (d.breakOff e, some e, [])
      | .ok d => takeAll d rest

end Draft

/-- The first document of a stream: its root, the error that broke it off,
and whether anything comes after it. -/
structure Document where
  root : Node
  error : Option StreamError
  isFollowed : Bool
deriving Repr

/-- **The first document of a stream.** A stream without a document has an
empty one. -/
def Document.first (stream : String) : Document :=
  let (events, fault) := events stream
  let (draft, error, rest) := Draft.takeAll ⟨[], none, []⟩ events
  let ended := events.any (·.kind = .documentEnd)
  let error := error.or (if ended then none else fault.map .malformed)
  let draft := error.elim draft draft.breakOff
  { root := draft.root.getD (.empty .origin)
    error := error
    isFollowed := ended && !rest.all (·.kind = .streamEnd) || ended && fault.isSome }

end Yaml

end Remedy
