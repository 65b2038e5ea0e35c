import Remedy.Text.Bytes
/-!
# The code page windows-1252

Every byte stands for one character: bytes below 0x80 and from 0xA0 on for
the character of the same number, those between for the table below, in
which five unassigned bytes stand for the control of the same number. A
character outside the page is written as a decimal reference.
-/

namespace Remedy

namespace Windows1252

/-- The characters of bytes 0x80 to 0x9F. -/
def upperTable : List Nat :=
  [0x20AC, 0x81, 0x201A, 0x0192, 0x201E, 0x2026, 0x2020, 0x2021,
   0x02C6, 0x2030, 0x0160, 0x2039, 0x0152, 0x8D, 0x017D, 0x8F,
   0x90, 0x2018, 0x2019, 0x201C, 0x201D, 0x2022, 0x2013, 0x2014,
   0x02DC, 0x2122, 0x0161, 0x203A, 0x0153, 0x9D, 0x017E, 0x0178]

/-- The character of a byte. -/
def charOf (b : UInt8) : Char :=
  if 0x80 ≤ b ∧ b < 0xA0 then Char.ofNat (upperTable.getD (b.toNat - 0x80) 0)
  else Char.ofNat b.toNat

/-- The byte of a character, if it has one. -/
def byteOf? (c : Char) : Option UInt8 :=
  let n := c.toNat
  if n < 0x80 ∨ (0xA0 ≤ n ∧ n < 0x100) then some (UInt8.ofNat n)
  else (upperTable.findIdx? (· == n)).map fun i => UInt8.ofNat (0x80 + i)

/-- The text of the bytes. -/
def decode (bytes : Bytes) : String := String.ofList (bytes.map charOf)

/-- A decimal character reference. -/
def reference (c : Char) : Bytes :=
  s!"&#{c.toNat};".toList.map fun d => UInt8.ofNat d.toNat

/-- The bytes of a text. -/
def encode (text : String) : Bytes :=
  text.toList.flatMap fun c => ((byteOf? c).map fun b => [b]).getD (reference c)

end Windows1252

end Remedy
