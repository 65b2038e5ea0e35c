import Remedy.Text.Bytes
/-!
# UTF-16

A character outside the basic plane is a pair of surrogates. Decoding is
strict: an unpaired surrogate or an odd number of bytes is refused.
-/

namespace Remedy

namespace Utf16

/-- Which byte of a unit is stored first. -/
inductive ByteOrder where
  | little
  | big
deriving DecidableEq, Repr

/-- The code units of a character. -/
def unitsOf (c : Char) : List Nat :=
  let n := c.toNat
  if n < 0x10000 then [n]
  else [0xD800 + (n - 0x10000) / 0x400, 0xDC00 + (n - 0x10000) % 0x400]

/-- The two bytes of a code unit. -/
def bytesOf (order : ByteOrder) (unit : Nat) : Bytes :=
  let hi := UInt8.ofNat (unit / 256)
  let lo := UInt8.ofNat (unit % 256)
  match order with
  | .little => [lo, hi]
  | .big => [hi, lo]

/-- The bytes of a text, without a byte order mark. -/
def encode (order : ByteOrder) (text : String) : Bytes :=
  (text.toList.flatMap unitsOf).flatMap (bytesOf order)

/-- The code unit of two bytes. -/
def unitOf (order : ByteOrder) (a b : UInt8) : Nat :=
  match order with
  | .little => b.toNat * 256 + a.toNat
  | .big => a.toNat * 256 + b.toNat

/-- The first half of a pair. -/
def isHigh (unit : Nat) : Bool := 0xD800 ≤ unit && unit < 0xDC00

/-- The second half of a pair. -/
def isLow (unit : Nat) : Bool := 0xDC00 ≤ unit && unit < 0xE000

/-- The code units of the bytes, if they come in twos. -/
def units? (order : ByteOrder) (done : List Nat) : Bytes → Option (List Nat)
  | [] => some done.reverse
  | a :: b :: rest => units? order (unitOf order a b :: done) rest
  | [_] => none

/-- Joins surrogates into characters. -/
def chars? (done : List Char) : List Nat → Option (List Char)
  | [] => some done.reverse
  | u :: rest =>
    if isHigh u then
      match rest with
      | v :: rest =>
        if isLow v then
          chars? (Char.ofNat (0x10000 + (u - 0xD800) * 0x400 + (v - 0xDC00)) :: done) rest
        else none
      | [] => none
    else if isLow u then none
    else chars? (Char.ofNat u :: done) rest

/-- The text of the bytes, which carry no byte order mark. -/
def decode? (order : ByteOrder) (bytes : Bytes) : Option String := do
  let units ← units? order [] bytes
  return String.ofList (← chars? [] units)

end Utf16

end Remedy
