import Remedy.Decimal.Positional
import Remedy.Decimal.Reader
import Remedy.Text.Quoted
import Remedy.Yaml.Document
/-!
# Reading a YAML document as typed data

A plain scalar is nothing, a truth value, a number or a text by how it is
written, unless its tag tells. A record is read from a mapping, entry by
entry in the order of the document; what it does not know is passed over,
and an empty scalar is a record with every default. The first mismatch is
told with its path and place; where the stream breaks off before any, its
error is told.
-/

namespace Remedy

namespace Yaml

/-! ## What a scalar is -/

/-- What a scalar stands for. -/
inductive ScalarValue where
  | nothing
  | truth (value : Bool)
  | integer (value : Int)
  | double (value : Float)
  | text (value : String)
deriving Repr

namespace ScalarValue

/-- The value of digits in a base. At least one has to be there. -/
def digits? (base : Nat) (text : List Char) : Option Nat :=
  if text.isEmpty then none
  else
    text.foldl (fun value c => do
      let digit ← Hex.value? c
      if digit < base then return (← value) * base + digit else none) (some 0)

/-- A base that is told by two characters before the digits. -/
def based? : List Char → Option Nat
  | '0' :: 'x' :: rest => digits? 16 rest
  | '0' :: 'o' :: rest => digits? 8 rest
  | '0' :: 'b' :: rest => digits? 2 rest
  | _ => none

/-- The text without one sign before it. -/
def unsignedPart : List Char → List Char
  | '+' :: rest | '-' :: rest => rest
  | rest => rest

/-- Digits that are no number: more than one, with a zero first. -/
def isPaddedDigits (text : List Char) : Bool :=
  match unsignedPart text with
  | '0' :: rest => !rest.isEmpty && rest.all Char.isDigit
  | _ => false

/-- The natural number below a bound that a text stands for. -/
def natural? (bound : Nat) (text : List Char) : Option Nat :=
  let body := match text with
    | '+' :: rest => rest
    | rest => rest
  let decimal := if isPaddedDigits text then none else digits? 10 body
  ((based? body).filter (· < bound)).or (decimal.filter (· < bound))

/-- The number that is not above zero, down to a bound, that a text with a
minus sign stands for. -/
def negative? (bound : Nat) : List Char → Option Int
  | '-' :: body =>
    let decimal := if isPaddedDigits body then none else digits? 10 body
    (((based? body).filter (· ≤ bound)).or (decimal.filter (· ≤ bound))).map fun n => -(n : Int)
  | _ => none

/-- The integer that a text stands for, of 128 bits at most. -/
def integer? (text : List Char) : Option Int :=
  ((natural? (Power.two 128) text).map Int.ofNat).or (negative? (Power.two 127) text)

/-- The double that a text stands for, an infinity or not a number by
their own names. -/
def double? (text : String) : Option Float :=
  let unsigned := if text.startsWith "+" then (text.drop 1).copy else text
  if text.startsWith "+" ∧ (unsigned.startsWith "+" ∨ unsigned.startsWith "-") then none
  else if [".inf", ".Inf", ".INF"].contains unsigned then some (1.0 / 0.0)
  else if ["-.inf", "-.Inf", "-.INF"].contains text then some (-1.0 / 0.0)
  else if [".nan", ".NaN", ".NAN"].contains text then some (0.0 / 0.0)
  else (Decimal.double? unsigned).filter Float.isFinite

/-- A text that stands for nothing. -/
def isNothing (text : String) : Bool := ["null", "Null", "NULL", "~"].contains text

/-- The truth value that a text stands for. -/
def truth? (text : String) : Option Bool :=
  if ["true", "True", "TRUE"].contains text then some true
  else if ["false", "False", "FALSE"].contains text then some false
  else none

/-- What a plain scalar stands for by how it is written. -/
def ofPlain (text : String) : ScalarValue :=
  if text.isEmpty ∨ isNothing text then .nothing
  else
    match truth? text, integer? text.toList, double? text with
    | some b, _, _ => .truth b
    | none, some n, _ => .integer n
    | none, none, some x => if isPaddedDigits text.toList then .text text else .double x
    | none, none, none => .text text

/-- What a value is, in a message. -/
def describe : ScalarValue → String
  | .nothing => "unit value"
  | .truth b => s!"boolean `{b}`"
  | .integer n =>
    let width := if Power.two 64 ≤ n then " as u128" else if n < -Power.two 63 then " as i128" else ""
    s!"integer `{n}`{width}"
  | .double x => s!"floating point `{Decimal.positional x}`"
  | .text s => s!"string {Quoted.quote s}"

end ScalarValue

/-! ## Tags -/

/-- The tag of a common type. -/
def typeTag (name : String) : Bytes := Utf8.encode s!"tag:yaml.org,2002:{name}"

/-- The name after the exclamation mark of a tag of one's own. -/
def ownTag? (tag : Option Bytes) : Option String :=
  match tag with
  | some (0x21 :: rest) => Utf8.decode? (if rest.isEmpty then [0x21] else rest)
  | _ => none

/-! ## Mismatches -/

/-- Why a document is not of the expected shape. -/
inductive Mismatch where
  | wrongType (found expected : String)
  | wrongValue (found expected : String)
  | repeatedField (name : String)
  | unknownVariant (name : String) (known : List String)
deriving DecidableEq, Repr

/-- The wording of a mismatch. -/
def Mismatch.message : Mismatch → String
  | .wrongType found expected => s!"invalid type: {found}, expected {expected}"
  | .wrongValue found expected => s!"invalid value: {found}, expected {expected}"
  | .repeatedField name => s!"duplicate field `{name}`"
  | .unknownVariant name known =>
    let quoted := " or ".intercalate (known.map fun k => s!"`{k}`")
    s!"unknown variant `{name}`, expected {quoted}"

/-- What a scalar is, or the mismatch with the type that its tag tells. -/
def scalarMismatch (head : Head) (style : Style) (text expected : String) : Mismatch :=
  let typed (value : Option ScalarValue) (name : String) : Mismatch :=
    match value with
    | some v => .wrongType v.describe expected
    | none => .wrongValue (ScalarValue.text text).describe name
  let untagged : ScalarValue := if style = .plain then .ofPlain text else .text text
  match head.tag with
  | none => .wrongType untagged.describe expected
  | some tag =>
    if tag = typeTag "bool" then typed ((ScalarValue.truth? text).map .truth) "a boolean"
    else if tag = typeTag "int" then
      typed ((ScalarValue.integer? text.toList).map .integer) "an integer"
    else if tag = typeTag "float" then typed ((ScalarValue.double? text).map .double) "a float"
    else if tag = typeTag "null" then
      typed (if ScalarValue.isNothing text then some .nothing else none) "null"
    else if tag.head? = some 0x21 then .wrongType untagged.describe expected
    else .wrongType (ScalarValue.text text).describe expected

/-- A step from a node to one inside it. -/
inductive PathStep where
  | field (name : String)
  | item (index : Nat)
  | unknown
deriving DecidableEq, Repr

/-- The text of a path from the root. -/
def pathText (path : List PathStep) : String :=
  path.foldl (fun text step =>
    let dotted := if text.isEmpty then "" else text ++ "."
    match step with
    | .field name => dotted ++ name
    | .unknown => dotted ++ "?"
    | .item index => (if text.isEmpty then "." else text) ++ s!"[{index}]") ""

/-- Why a document cannot be read as data of a type. -/
inductive DecodeError where
  | stream (error : StreamError)
  | mismatch (cause : Mismatch) (place : Option (Mark × List PathStep))
  | severalDocuments
deriving Repr

namespace DecodeError

/-- The message of an error. -/
def message : DecodeError → String
  | .stream e => e.message
  | .severalDocuments => "deserializing from YAML containing more than one document is not supported"
  | .mismatch cause none => cause.message
  | .mismatch cause (some (mark, path)) =>
    let path := pathText path
    (if path.isEmpty then "" else path ++ ": ") ++ cause.message ++ mark.told

/-- Places a mismatch that has no place yet. -/
def placedAt (mark : Mark) : DecodeError → DecodeError
  | .mismatch cause none => .mismatch cause (some (mark, []))
  | e => e

/-- The error as seen from the node around. -/
def inside (step : PathStep) : DecodeError → DecodeError
  | .mismatch cause (some (mark, path)) => .mismatch cause (some (mark, step :: path))
  | e => e

end DecodeError

/-! ## Readers -/

/-- A typed reading of a node. The first argument is the root, in which
aliases are looked up. -/
abbrev Decoder (α : Type) := Node → Node → Except DecodeError α

/-- The node that an alias stands for. -/
def Node.resolved (root : Node) : Node → Node
  | .alias anchor => (root.anchored? anchor).getD (.alias anchor)
  | node => node

/-- Refuses a node. -/
def refuse (node : Node) (expected : String) : Except DecodeError α :=
  match node with
  | .scalar head style text =>
    .error (.mismatch (scalarMismatch head style text expected) (some (head.mark, [])))
  | .sequence head _ =>
    .error (.mismatch (.wrongType "sequence" expected) (some (head.mark, [])))
  | .mapping head _ => .error (.mismatch (.wrongType "map" expected) (some (head.mark, [])))
  | .alias _ => .error (.mismatch (.wrongType "alias" expected) none)
  | .missing e => .error (.stream e)

/-- The text of any scalar. -/
def text (expected : String) : Decoder String := fun root node =>
  match root.resolved node with
  | .scalar _ _ text => .ok text
  | node => refuse node expected

/-- An unsigned number of 64 bits. -/
def word64 (expected : String) : Decoder Nat := fun root node =>
  match root.resolved node with
  | .scalar head style text =>
    let numeric := style = .plain ∨ (style = .literal ∧ head.tag = some (typeTag "int"))
    match if numeric then ScalarValue.natural? (Power.two 64) text.toList else none with
    | some n => .ok n
    | none => refuse (.scalar head style text) expected
  | node => refuse node expected

/-- Reads items from an index on. -/
def items (decode : Decoder α) (root : Node) : Nat → List Node → Except DecodeError (List α)
  | _, [] => .ok []
  | index, node :: rest => do
    let value ← (decode root node).mapError (·.inside (.item index))
    return value :: (← items decode root (index + 1) rest)

/-- A list of items of one kind. An empty scalar is an empty list. -/
def listOf (decode : Decoder α) : Decoder (List α) := fun root node =>
  match root.resolved node with
  | .sequence _ nodes => items decode root 0 nodes
  | .scalar head .plain "" =>
    let _ := head
    .ok []
  | node => refuse node "a sequence"

/-- Nothing but an empty scalar or one that stands for nothing. -/
def unit (node : Node) : Except DecodeError Unit :=
  match node with
  | .scalar head .plain text =>
    if text.isEmpty ∨ ScalarValue.isNothing text then .ok ()
    else refuse (.scalar head .plain text) "unit"
  | node => refuse node "unit"

/-- The tag of a node that has one. -/
def Node.tag? : Node → Option Bytes
  | .scalar head .. | .sequence head _ | .mapping head _ => head.tag
  | .alias _ | .missing _ => none

/-- One of several names, as the text of a scalar or as the tag of a node
without content. -/
def oneOf (known : List String) : Decoder String := fun root node =>
  let node := root.resolved node
  match ownTag? node.tag?, node with
  | some name, node =>
    if known.contains name then (unit node).map fun _ => name
    else .error (.mismatch (.unknownVariant name known) none)
  | none, .scalar head _ name =>
    if known.contains name then .ok name
    else .error (.mismatch (.unknownVariant name known) (some (head.mark, [])))
  | none, node => refuse node "a YAML tag starting with '!'"

/-- The step to the value of a key. -/
def keyStep : Node → PathStep
  | .scalar _ _ text => .field text
  | _ => .unknown

/-- Reads the entries of a record onto a value. -/
def entries (fields : List (String × Decoder (α → α))) (root : Node) :
    List String → α → List (Node × Node) → Except DecodeError α
  | _, record, [] => .ok record
  | seen, record, (key, value) :: rest => do
    let name ← text "field identifier" root key
    match fields.lookup name with
    | none =>
      if let some e := value.error? then throw (.stream e)
      entries fields root seen record rest
    | some decode =>
      if seen.contains name then throw (.mismatch (.repeatedField name) none)
      let put ← (decode root value).mapError (·.inside (keyStep key))
      entries fields root (name :: seen) (put record) rest

/-- **A record**, from the defaults of its fields and a reader for each. An
empty scalar leaves every default. -/
def record (name : String) (fields : List (String × Decoder (α → α))) (initial : α) :
    Decoder α := fun root node =>
  match root.resolved node with
  | .mapping head nodes =>
    (entries fields root [] initial nodes).mapError (·.placedAt head.mark)
  | .scalar head .plain "" =>
    let _ := head
    .ok initial
  | node => refuse node s!"struct {name}"

/-- A reader for a field, and how its value is put into the record. -/
def field (name : String) (decode : Decoder β) (put : β → α → α) :
    String × Decoder (α → α) :=
  (name, fun root node => (decode root node).map put)

/-- **Reads the one document of a stream.** -/
def decode (reader : Decoder α) (stream : String) : Except DecodeError α := do
  let document := Document.first stream
  let value ← reader document.root document.root
  if let some e := document.error then throw (.stream e)
  if document.isFollowed then throw .severalDocuments
  return value

end Yaml

end Remedy
