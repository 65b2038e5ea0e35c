import Remedy.Decimal.Power
import Remedy.Json.Basic
import Remedy.Text.Quoted
/-!
# Reading a document as typed data

A record is read from an object, member by member in the order of the
document, or from an array, field by field. Each field is decoded on its
own; when several fail, the fault of the one that comes first is told. A
member that is present but wrong comes before a field that is missing.
-/

namespace Remedy

namespace Json

/-- Why a document is not of the expected shape. -/
inductive DecodeFault where
  | wrongType (found : Json) (expected : String)
  | wrongValue (found : Json) (expected : String)
  | wrongLength (length : Nat) (expected : String)
  | missing (field : String)
  | unknownVariant (name : String) (known : List String)
deriving Repr

/-- What a document is, in a message. -/
def describe : Json → String
  | .null => "null"
  | .bool b => s!"boolean `{b}`"
  | .number (.float x) => s!"floating point `{JsonNumber.floatText x}`"
  | .number n => s!"integer `{n.text}`"
  | .string s => s!"string {Quoted.quote s}"
  | .array _ => "sequence"
  | .object _ => "map"

/-- The wording of a fault. -/
def DecodeFault.message : DecodeFault → String
  | .wrongType found expected => s!"invalid type: {found.describe}, expected {expected}"
  | .wrongValue found expected => s!"invalid value: {found.describe}, expected {expected}"
  | .wrongLength length expected => s!"invalid length {length}, expected {expected}"
  | .missing field => s!"missing field `{field}`"
  | .unknownVariant name known =>
    let quoted := ", ".intercalate (known.map fun k => s!"`{k}`")
    s!"unknown variant `{name}`, expected one of {quoted}"

/-- A typed reading of a document. -/
abbrev Decoder (α : Type) := Json → Except DecodeFault α

/-- Any text. -/
def text : Decoder String
  | .string s => .ok s
  | doc => .error (.wrongType doc "a string")

/-- A natural number below a bound. -/
def boundedBy (name : String) (bound : Nat) : Decoder Nat
  | .number (.natural n) =>
    if n < bound then .ok n else .error (.wrongValue (.number (.natural n)) name)
  | .number (.negative n) => .error (.wrongValue (.number (.negative n)) name)
  | doc => .error (.wrongType doc name)

/-- An unsigned number of 32 bits. -/
def word32 : Decoder Nat := boundedBy "u32" (Power.two 32)

/-- An unsigned number of 64 bits. -/
def word64 : Decoder Nat := boundedBy "u64" (Power.two 64)

/-- A size or an index. -/
def size : Decoder Nat := boundedBy "usize" (Power.two 64)

/-- Nothing for `null`. -/
def nullable (decode : Decoder α) : Decoder (Option α)
  | .null => .ok none
  | doc => (decode doc).map some

/-- A list of items of one kind. -/
def listOf (decode : Decoder α) : Decoder (List α)
  | .array items => items.mapM decode
  | doc => .error (.wrongType doc "a sequence")

/-- The members of an object, whatever they hold. -/
def members : Decoder (List (String × Json))
  | .object members => .ok members
  | doc => .error (.wrongType doc "a map")

/-! ## Records -/

/-- How many elements an array form has, in a message. -/
def elementCount (n : Nat) : String := if n = 1 then "1 element" else s!"{n} elements"

/-- A record to be read: by key or by position, with its name and the
number of its fields for messages. -/
structure Record where
  name : String
  fields : Nat
  source : Sum (List (String × Json)) (List Json)

/-- A fault and its place in the order in which faults are found. -/
structure Ranked where
  rank : Nat
  fault : DecodeFault

/-- A field that was read, or its fault. -/
abbrev FieldResult (α : Type) := Except Ranked α

/-- Two fields read side by side. Of two faults the earlier one counts. -/
def FieldResult.and (a : FieldResult α) (b : FieldResult β) : FieldResult (α × β) :=
  match a, b with
  | .ok x, .ok y => .ok (x, y)
  | .error f, .ok _ => .error f
  | .ok _, .error g => .error g
  | .error f, .error g => .error (if f.rank ≤ g.rank then f else g)

/-- The document as a record. -/
def record (name : String) (fields : Nat) : Decoder Record
  | .object members => .ok ⟨name, fields, .inl members⟩
  | .array items => .ok ⟨name, fields, .inr items⟩
  | doc => .error (.wrongType doc name)

namespace Record

/-- The field of an index and a key. What is absent takes the default, or
is a fault if there is none. -/
def field (r : Record) (index : Nat) (key : String) (decode : Decoder α) (absent : Option α) :
    FieldResult α :=
  match r.source with
  | .inl members =>
    match members.findIdx? (·.1 == key), members.lookup key with
    | some i, some value => (decode value).mapError (⟨i, ·⟩)
    | _, _ =>
      match absent with
      | some value => .ok value
      | none => .error ⟨members.length + index, .missing key⟩
  | .inr items =>
    match items[index]? with
    | some value => (decode value).mapError (⟨index, ·⟩)
    | none =>
      match absent with
      | some value => .ok value
      | none =>
        .error ⟨index, .wrongLength index s!"{r.name} with {elementCount r.fields}"⟩

/-- A field that has to be there. -/
def required (r : Record) (index : Nat) (key : String) (decode : Decoder α) : FieldResult α :=
  r.field index key decode none

/-- A field that may be absent or `null`. -/
def optional (r : Record) (index : Nat) (key : String) (decode : Decoder α) :
    FieldResult (Option α) :=
  r.field index key (nullable decode) (some none)

/-- The fields that were read, provided that an array has no more of them
than the record. The last argument words that bound. -/
def finish (r : Record) (result : FieldResult α) (excess : String) : Except DecodeFault α :=
  match result with
  | .error f => .error f.fault
  | .ok value =>
    match r.source with
    | .inl _ => .ok value
    | .inr items =>
      if items.length ≤ r.fields then .ok value else .error (.wrongLength items.length excess)

/-- The fields of a record that is a document of its own. -/
def done (r : Record) (result : FieldResult α) : Except DecodeFault α :=
  r.finish result "fewer elements in array"

/-- The fields of a record that was one of several variants. -/
def variantDone (r : Record) (result : FieldResult α) : Except DecodeFault α :=
  r.finish result s!"{elementCount r.fields} in sequence"

end Record

/-! ## Variants -/

/-- The name of the variant a document tells of by a member, or by the
first item of an array, and the rest of the document. -/
def tagged (typeName key : String) (known : List String) :
    Json → Except DecodeFault (String × Json) := fun doc => do
  let (tag, rest) ← match doc with
    | .object members =>
      match members.lookup key with
      | some tag => .ok (tag, .object (members.filter (·.1 ≠ key)))
      | none => .error (.missing key)
    | .array (tag :: rest) => .ok (tag, .array rest)
    | .array [] => .error (.missing key)
    | doc => .error (.wrongType doc s!"internally tagged enum {typeName}")
  match tag with
  | .string name =>
    if name ∈ known then return (name, rest) else .error (.unknownVariant name known)
  | tag => .error (.wrongType tag "variant identifier")

end Json

end Remedy
