/-!
# Bytes and their hexadecimal text

A file's content is a list of bytes. Hexadecimal text writes each byte as
two lower-case digits and is read in either case.
-/

namespace Remedy

/-- The content of a file, as stored. -/
abbrev Bytes := List UInt8

namespace Hex

/-- The digits in order of value. -/
def digits : List Char :=
  ['0', '1', '2', '3', '4', '5', '6', '7', '8', '9', 'a', 'b', 'c', 'd', 'e', 'f']

/-- The digit of a value below sixteen. -/
def digit (n : Nat) : Char := digits.getD n '0'

/-- The value of a digit, upper or lower case. -/
def value? (c : Char) : Option Nat :=
  if '0' ≤ c ∧ c ≤ '9' then some (c.toNat - '0'.toNat)
  else if 'a' ≤ c ∧ c ≤ 'f' then some (c.toNat - 'a'.toNat + 10)
  else if 'A' ≤ c ∧ c ≤ 'F' then some (c.toNat - 'A'.toNat + 10)
  else none

/-- Two digits for each byte. -/
def ofBytes (bytes : Bytes) : String :=
  String.ofList (bytes.flatMap fun b => [digit (b.toNat / 16), digit (b.toNat % 16)])

/-- Reads digits in pairs. -/
def toBytesFrom : List Char → Option Bytes
  | [] => some []
  | hi :: lo :: rest => do
    let h ← value? hi
    let l ← value? lo
    return UInt8.ofNat (h * 16 + l) :: (← toBytesFrom rest)
  | [_] => none

/-- The bytes a hexadecimal text stands for. -/
def toBytes? (text : String) : Option Bytes := toBytesFrom text.toList

end Hex

end Remedy
