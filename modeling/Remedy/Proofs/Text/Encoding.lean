import Mathlib
import Remedy.Text.Encoding
import Remedy.Proofs.Text.Utf16
/-!
# Encodings are read back

Encoding works part by part (`Charset.encode_append`). What a file is read
as is written as the bytes of the file (`TextEncoding.encode_of_decode`), in
every character set and with the mark of the file. The other way around a
text comes back as it is spelled in the set (`Charset.decode?_encode`): the
code page writes a reference for each character it does not hold, and
nothing tells it from a reference that stood in the text, so a text comes
back if and only if the set holds all its characters
(`Charset.spelled_eq_self_iff`).
-/

namespace Remedy

/-! ## UTF-8 -/

namespace Utf8

theorem encode_append (a b : String) : encode (a ++ b) = encode a ++ encode b := by
  simp only [encode, String.toByteArray_append, ByteArray.data_append, Array.toList_append]

/-- **Decoding is the inverse of encoding.** -/
theorem decode?_eq_some_iff {bytes : Bytes} {text : String} :
    decode? bytes = some text ↔ encode text = bytes := by
  rw [decode?, String.fromUTF8?, encode]
  constructor
  · intro h
    split at h
    case isTrue hvalid =>
      cases h
      rfl
    case isFalse => cases h
  · rintro rfl
    exact dif_pos text.isValidUTF8

end Utf8

/-! ## The code page -/

namespace Windows1252

variable {bytes : Bytes} {text : String} {c : Char} {b : UInt8}

/-- Every byte is found again by its character. -/
theorem byteOf?_charOf (b : UInt8) : byteOf? (charOf b) = some b := by
  have htable : ∀ n < 256, byteOf? (charOf (UInt8.ofNat n)) = some (UInt8.ofNat n) := by
    decide +kernel
  have hb := htable b.toNat b.toNat_lt
  rwa [UInt8.ofNat_toNat] at hb

theorem charOf_ofNat {n : Nat} (hn : n < 0x80 ∨ 0xA0 ≤ n ∧ n < 0x100) :
    charOf (UInt8.ofNat n) = Char.ofNat n := by
  have hcopied : ∀ n < 256, n < 0x80 ∨ 0xA0 ≤ n → charOf (UInt8.ofNat n) = Char.ofNat n := by
    decide +kernel
  exact hcopied n (by omega) (by omega)

/-- Every character of the page is found again by its byte. -/
theorem charOf_of_byteOf? (h : byteOf? c = some b) : charOf b = c := by
  have htable : ∀ i < upperTable.length,
      charOf (UInt8.ofNat (0x80 + i)) = Char.ofNat (upperTable.getD i 0) := by
    decide +kernel
  rw [byteOf?] at h
  split at h
  case isTrue hcopied =>
    cases h
    rw [charOf_ofNat hcopied, Char.ofNat_toNat]
  case isFalse =>
    obtain ⟨i, hi, rfl⟩ := Option.map_eq_some_iff.1 h
    obtain ⟨hlt, hentry, -⟩ := List.findIdx?_eq_some_iff_getElem.1 hi
    have hsame : upperTable.getD i 0 = c.toNat := by
      rw [List.getD_eq_getElem _ _ hlt]
      exact of_decide_eq_true hentry
    rw [htable i hlt, hsame, Char.ofNat_toNat]

/-- The reference of a character, as text. -/
def referenceText (c : Char) : String := s!"&#{c.toNat};"

/-- How the page spells a character. -/
def spelling (c : Char) : List Char :=
  if (byteOf? c).isSome then [c] else (referenceText c).toList

/-- A text with references for the characters outside the page. -/
def spelled (text : String) : String := String.ofList (text.toList.flatMap spelling)

theorem encode_append (a b : String) : encode (a ++ b) = encode a ++ encode b := by
  simp only [encode, String.toList_append, List.flatMap_append]

/-- The bytes that were read as a text are written for it. -/
theorem encode_decode (bytes : Bytes) : encode (decode bytes) = bytes := by
  rw [encode, decode, String.toList_ofList, List.flatMap_map]
  simp only [byteOf?_charOf, Option.map_some, Option.getD_some, List.flatMap_singleton']

theorem toList_referenceText (c : Char) :
    (referenceText c).toList = ['&', '#'] ++ Nat.toDigits 10 c.toNat ++ [';'] := by
  have htext : referenceText c = "&#" ++ c.toNat.repr ++ ";" := rfl
  rw [htext, String.toList_append, String.toList_append, Nat.toList_repr]
  rfl

/-- A reference is made of digits and signs that are their own bytes. -/
theorem toNat_lt_of_mem_referenceText {d : Char} (h : d ∈ (referenceText c).toList) :
    d.toNat < 0x80 := by
  rw [toList_referenceText, List.mem_append, List.mem_append] at h
  rcases h with (hfront | hdigit) | hback
  · obtain rfl | rfl := List.mem_pair.1 hfront
    all_goals decide
  · have hd : d.isDigit := Nat.isDigit_of_mem_toDigits (by omega) (by omega) hdigit
    have hrange : 48 ≤ d.toNat ∧ d.toNat ≤ 57 := by
      simpa [Char.isDigit, UInt32.le_iff_toNat_le] using hd
    omega
  · rw [List.mem_singleton.1 hback]
    decide

theorem map_charOf_reference (c : Char) :
    (reference c).map charOf = (referenceText c).toList := by
  have hreference : reference c = (referenceText c).toList.map fun d => UInt8.ofNat d.toNat := rfl
  rw [hreference, List.map_map]
  refine (List.map_congr_left fun d hd => ?_).trans (List.map_id _)
  exact (charOf_ofNat (.inl (toNat_lt_of_mem_referenceText hd))).trans (Char.ofNat_toNat d)

/-- What is written for a character is read as its spelling. -/
theorem map_charOf_encodeChar (c : Char) :
    (((byteOf? c).map fun b => [b]).getD (reference c)).map charOf = spelling c := by
  rw [spelling]
  cases hbyte : byteOf? c with
  | none => exact map_charOf_reference c
  | some b => exact congrArg (fun d => [d]) (charOf_of_byteOf? hbyte)

/-- **A text that was written is read as it is spelled.** -/
theorem decode_encode (text : String) : decode (encode text) = spelled text := by
  rw [decode, encode, spelled, List.map_flatMap]
  simp only [map_charOf_encodeChar]

theorem length_spelling (c : Char) :
    1 ≤ (spelling c).length ∧ ((spelling c).length = 1 → (byteOf? c).isSome) := by
  rw [spelling]
  split
  case isTrue hheld => exact ⟨le_rfl, fun _ => hheld⟩
  case isFalse =>
    rw [toList_referenceText]
    simp only [List.length_append, List.length_cons, List.length_nil]
    omega

theorem length_le_length_flatMap_spelling (chars : List Char) :
    chars.length ≤ (chars.flatMap spelling).length := by
  induction chars with
  | nil => exact le_rfl
  | cons c chars ih =>
    have hone := (length_spelling c).1
    rw [List.flatMap_cons, List.length_append, List.length_cons]
    omega

/-- A text is spelled as it is if and only if the page holds all of it. -/
theorem spelled_eq_self_iff : spelled text = text ↔ ∀ c ∈ text.toList, (byteOf? c).isSome := by
  rw [← String.toList_inj, spelled, String.toList_ofList]
  constructor
  · intro h
    generalize text.toList = chars at h
    induction chars with
    | nil => simp
    | cons c chars ih =>
      -- each character takes up one place at least, so no character takes two
      have hrest := length_le_length_flatMap_spelling chars
      have hone := length_spelling c
      have hlength := congrArg List.length h
      rw [List.flatMap_cons, List.length_append, List.length_cons] at hlength
      have hheld : (byteOf? c).isSome := hone.2 (by omega)
      rw [List.flatMap_cons, spelling, if_pos hheld, List.singleton_append] at h
      exact List.forall_mem_cons.2 ⟨hheld, ih (List.cons.inj h).2⟩
  · intro hheld
    have hsame : ∀ c ∈ text.toList, spelling c = [c] := fun c hc => if_pos (hheld c hc)
    rw [List.flatMap_congr hsame, List.flatMap_singleton']

end Windows1252

/-! ## Character sets -/

namespace Charset

variable {charset : Charset} {bytes rest : Bytes} {text : String}

/-- The set has a place for the character. -/
def holds : Charset → Char → Bool
  | .windows1252, c => (Windows1252.byteOf? c).isSome
  | _, _ => true

/-- How a text reads once it was written in the set. -/
def spelled : Charset → String → String
  | .windows1252, text => Windows1252.spelled text
  | _, text => text

@[simp] theorem encode_append (charset : Charset) (a b : String) :
    charset.encode (a ++ b) = charset.encode a ++ charset.encode b := by
  cases charset with
  | utf8 => exact Utf8.encode_append a b
  | utf16le => exact Utf16.encode_append .little a b
  | utf16be => exact Utf16.encode_append .big a b
  | windows1252 => exact Windows1252.encode_append a b

/-- **What was read is written as the bytes it was read from.** -/
theorem encode_of_decode? (h : charset.decode? bytes = some text) :
    charset.encode text = bytes := by
  cases charset with
  | utf8 => exact Utf8.decode?_eq_some_iff.1 h
  | utf16le => exact Utf16.decode?_eq_some_iff.1 h
  | utf16be => exact Utf16.decode?_eq_some_iff.1 h
  | windows1252 =>
    cases h
    exact Windows1252.encode_decode bytes

/-- **What was written is read**, as it is spelled in the set. -/
theorem decode?_encode (charset : Charset) (text : String) :
    charset.decode? (charset.encode text) = some (charset.spelled text) := by
  cases charset with
  | utf8 => exact Utf8.decode?_eq_some_iff.2 rfl
  | utf16le => exact Utf16.decode?_eq_some_iff.2 rfl
  | utf16be => exact Utf16.decode?_eq_some_iff.2 rfl
  | windows1252 => exact congrArg some (Windows1252.decode_encode text)

/-- A text keeps its spelling if and only if the set holds all of it. -/
theorem spelled_eq_self_iff :
    charset.spelled text = text ↔ ∀ c ∈ text.toList, charset.holds c := by
  cases charset with
  | utf8 | utf16le | utf16be => exact iff_of_true rfl fun _ _ => rfl
  | windows1252 => exact Windows1252.spelled_eq_self_iff

/-- What was read keeps its spelling. -/
theorem holds_of_decode? (h : charset.decode? bytes = some text) :
    ∀ c ∈ text.toList, charset.holds c := by
  have hread := decode?_encode charset text
  rw [encode_of_decode? h, h, Option.some.injEq] at hread
  exact spelled_eq_self_iff.1 hread.symm

/-- The mark that a file begins with, if it begins with one. -/
def markOf (bytes : Bytes) : Bytes := ((ofMark? bytes).map fun found => found.1.mark).getD []

/-- A mark that was found stands ahead of the rest. -/
theorem eq_of_ofMark? (h : ofMark? bytes = some (charset, rest)) :
    bytes = charset.mark ++ rest := by
  rw [ofMark?.eq_def] at h
  split at h <;> cases h <;> rfl

end Charset

/-! ## Files -/

namespace TextEncoding

variable {encoding : TextEncoding} {bytes : Bytes} {text : String} {guess : Bytes → Charset}

/-- What a file is read as: its mark is noted with the encoding, and the
rest is read in the character set. -/
theorem exists_of_decode (h : decode bytes guess = .ok (text, encoding)) :
    (if encoding.bom then encoding.charset.mark else []) = Charset.markOf bytes ∧
      ∃ body, bytes = Charset.markOf bytes ++ body ∧
        encoding.charset.decode? body = some text := by
  rw [decode] at h
  rw [Charset.markOf]
  split at h
  case h_1 charset rest hmark =>
    rw [hmark]
    split at h
    case h_1 hread =>
      cases h
      exact ⟨rfl, rest, Charset.eq_of_ofMark? hmark, hread⟩
    case h_2 => cases h
  case h_2 hmark =>
    rw [hmark]
    split at h
    case h_1 hread =>
      cases h
      exact ⟨rfl, bytes, rfl, hread⟩
    case h_2 =>
      split at h
      case h_1 hread =>
        cases h
        exact ⟨rfl, bytes, rfl, hread⟩
      case h_2 => cases h

/-- Any text is written behind the mark of the file. -/
theorem encode_eq (h : decode bytes guess = .ok (text, encoding)) (new : String) :
    encoding.encode new = Charset.markOf bytes ++ encoding.charset.encode new := by
  rw [encode, (exists_of_decode h).1]

/-- **A file is written as it was read.** -/
theorem encode_of_decode (h : decode bytes guess = .ok (text, encoding)) :
    encoding.encode text = bytes := by
  obtain ⟨-, body, hbytes, hread⟩ := exists_of_decode h
  rw [encode_eq h, Charset.encode_of_decode? hread, ← hbytes]

/-- The character set of a file holds the whole text of the file. -/
theorem holds_of_decode (h : decode bytes guess = .ok (text, encoding)) :
    ∀ c ∈ text.toList, encoding.charset.holds c := by
  obtain ⟨-, body, -, hread⟩ := exists_of_decode h
  exact Charset.holds_of_decode? hread

end TextEncoding

end Remedy
