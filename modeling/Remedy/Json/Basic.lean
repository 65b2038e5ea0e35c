import Remedy.Decimal.Shortest
/-!
# JSON values

Members of an object are an ordered list of pairs. A document that was
read has its members sorted by key, each key once; a document that is to
be written keeps the order it was built in.
-/

namespace Remedy

/-- A number as JSON text tells it: a natural number, the negative of a
positive one, or a double. -/
inductive JsonNumber where
  | natural (n : Nat)
  | negative (n : Nat)
  | float (x : Float)
deriving BEq, Repr, Inhabited

/-- A JSON document. -/
inductive Json where
  | null
  | bool (b : Bool)
  | number (n : JsonNumber)
  | string (s : String)
  | array (items : List Json)
  | object (members : List (String × Json))
deriving BEq, Repr, Inhabited

namespace JsonNumber

/-- A digit string with a point after the first `whole` digits. -/
def withPoint (digits : List Char) (whole : Nat) : List Char :=
  digits.take whole ++ '.' :: digits.drop whole

/-- The text of a positive decimal. From 10⁻⁵ up to below 10¹⁶ it is
positional and always has a point; elsewhere it has an exponent with its
sign. -/
def decimalText (d : Shortest.Decimal) : List Char :=
  let digits := (toString d.digits).toList
  let whole : Int := digits.length + d.exponent
  if 0 < whole ∧ whole ≤ 16 then
    let padded := digits ++ List.replicate d.exponent.toNat '0'
    let padded := if padded.length = whole.toNat then padded ++ ['0'] else padded
    withPoint padded whole.toNat
  else if -5 < whole ∧ whole ≤ 0 then
    '0' :: '.' :: (List.replicate (-whole).toNat '0' ++ digits)
  else
    let lead := if digits.length = 1 then digits else withPoint digits 1
    let exponent := whole - 1
    lead ++ 'e' :: (if exponent < 0 then '-' else '+') :: (toString exponent.natAbs).toList

/-- The text of a double; one that is not finite has none and is written
`null`. -/
def floatText (x : Float) : String :=
  match FloatParts.ofFloat x with
  | .notANumber | .infinite _ => "null"
  | .finite minus m e =>
    let body := if m = 0 then ['0', '.', '0'] else decimalText (Shortest.digits m e)
    String.ofList (if minus then '-' :: body else body)

/-- The text of a number. -/
def text : JsonNumber → String
  | .natural n => toString n
  | .negative n => s!"-{n}"
  | .float x => floatText x

/-- The double nearest to a number. -/
def toFloat : JsonNumber → Float
  | .natural n => (UInt64.ofNat n).toFloat
  | .negative n => -(UInt64.ofNat n).toFloat
  | .float x => x

end JsonNumber

namespace Json

/-- A natural number as a document. -/
def nat (n : Nat) : Json := .number (.natural n)

/-- The value, or `null` for none. -/
def ofOption (value : Option Json) : Json := value.getD .null

/-- A list of texts. -/
def strings (texts : List String) : Json := .array (texts.map .string)

/-- The value of a member, if the document is an object that has it. -/
def member? (doc : Json) (key : String) : Option Json :=
  match doc with
  | .object members => members.lookup key
  | _ => none

/-- The items of an array. -/
def items? : Json → Option (List Json)
  | .array items => some items
  | _ => none

/-- The text of a string. -/
def string? : Json → Option String
  | .string s => some s
  | _ => none

/-- Puts a member in its place among sorted members. A key that is already
there takes the new value. -/
def insertMember (key : String) (value : Json) : List (String × Json) → List (String × Json)
  | [] => [(key, value)]
  | (k, v) :: rest =>
    if key = k then (key, value) :: rest
    else if key < k then (key, value) :: (k, v) :: rest
    else (k, v) :: insertMember key value rest

/-- An object from members in any order, sorted, where the last value of a
repeated key counts. -/
def sorted (members : List (String × Json)) : Json :=
  .object (members.foldl (fun done (k, v) => insertMember k v done) [])

end Json

end Remedy
