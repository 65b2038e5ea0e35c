import Mathlib
import Remedy.Proofs.Text.Encoding
/-!
# What a file is taken for

Nothing is kept of the encoding of a file but its bytes, so it has to be
found out from them. Bytes are read as a text in an encoding if and only if
they are what is written for the text and the text can be told in this
encoding (`TextEncoding.decode_eq_ok_iff`). Behind a mark every text can.
Without one a text must not look like a mark itself: in UTF-8 that is a text
that starts with U+FEFF, and no other one
(`Charset.ofMark?_encode_utf8_eq_none_iff`).
-/

namespace Remedy

/-! ## The first character of UTF-8 -/

namespace Utf8

variable {rest : Bytes} {text : String} {c d : Char} {cs : List Char} {b : UInt8}

/-- A text is written character by character. -/
theorem encode_eq_of_toList (h : text.toList = c :: cs) :
    encode text = String.utf8EncodeChar c ++ encode (String.ofList cs) := by
  have hfirst : encode (String.ofList [c]) = String.utf8EncodeChar c := by
    rw [encode, String.toByteArray_ofList, List.utf8Encode_singleton, List.toList_data_toByteArray]
  have htext : text = String.ofList [c] ++ String.ofList cs := by
    rw [← String.ofList_append, List.singleton_append, ← h, String.ofList_toList]
  rw [htext, encode_append, hfirst]

/-- The first byte of a text is none of those that go on with a character or
that stand in no text. -/
theorem isUTF8FirstByte_of_encode (h : encode text = b :: rest) : b.IsUTF8FirstByte := by
  cases hchars : text.toList with
  | nil =>
    rw [String.toList_eq_nil_iff.1 hchars] at h
    cases h
  | cons c cs =>
    rw [encode_eq_of_toList hchars] at h
    have hlength : 0 < (String.utf8EncodeChar c).length := by
      rw [String.length_utf8EncodeChar]
      exact c.utf8Size_pos
    have hget := congrArg (·[0]?) h
    rw [List.getElem?_append_left hlength, List.getElem?_eq_getElem hlength,
      List.getElem?_cons_zero, Option.some.injEq] at hget
    rw [← hget]
    exact UInt8.isUTF8FirstByte_getElem_utf8EncodeChar.2 rfl

/-- **The bytes of a character stand ahead of those of a text** if and only
if the text starts with it. -/
theorem head?_eq_some_iff :
    text.toList.head? = some c ↔ ∃ rest, encode text = String.utf8EncodeChar c ++ rest := by
  constructor
  · intro h
    obtain ⟨cs, hchars⟩ := List.head?_eq_some_iff.1 h
    exact ⟨_, encode_eq_of_toList hchars⟩
  · rintro ⟨rest, h⟩
    cases hchars : text.toList with
    | nil =>
      rw [String.toList_eq_nil_iff.1 hchars] at h
      exact absurd (List.append_eq_nil_iff.1 h.symm).1 String.utf8EncodeChar_ne_nil
    | cons d cs =>
      -- both characters are the one that the bytes begin with
      rw [encode_eq_of_toList hchars] at h
      have hbytes := congrArg List.toByteArray h
      rw [List.toByteArray_append, List.toByteArray_append] at hbytes
      have hdecoded := congrArg (ByteArray.utf8DecodeChar? · 0) hbytes
      simp only [ByteArray.utf8DecodeChar?_utf8EncodeChar_append] at hdecoded
      exact hdecoded

/-- A byte that is all of a character is in no other character, -/
theorem eq_of_mem_utf8EncodeChar (hd : String.utf8EncodeChar d = [b])
    (h : b ∈ String.utf8EncodeChar c) : c = d := by
  obtain ⟨i, hi, hbyte⟩ := List.getElem_of_mem h
  have hbytes : encode (String.ofList [d]) = b :: [] := by
    rw [encode_eq_of_toList String.toList_ofList, hd]
    rfl
  have hbegins : b.IsUTF8FirstByte := isUTF8FirstByte_of_encode hbytes
  have hfirst : i = 0 := UInt8.isUTF8FirstByte_getElem_utf8EncodeChar.1 (hbyte ▸ hbegins)
  subst hfirst
  have htext : (String.ofList [c]).toList = [c] := String.toList_ofList
  have hstart : encode (String.ofList [c]) = String.utf8EncodeChar d ++
      (String.utf8EncodeChar c).tail := by
    rw [encode_eq_of_toList htext, hd, ← hbyte, List.singleton_append,
      ← List.head_eq_getElem_zero String.utf8EncodeChar_ne_nil, List.cons_head_tail]
    exact List.append_nil _
  have hhead := head?_eq_some_iff.2 ⟨_, hstart⟩
  rw [htext] at hhead
  exact Option.some.inj hhead

/-- and the bytes of a text have none if the text does not have it. -/
theorem not_mem_encode (hd : String.utf8EncodeChar d = [b]) (h : d ∉ text.toList) :
    b ∉ encode text := by
  generalize hcs : text.toList = cs at h
  induction cs generalizing text with
  | nil =>
    rw [String.toList_eq_nil_iff.1 hcs]
    exact List.not_mem_nil
  | cons c cs ih =>
    rw [List.mem_cons, not_or] at h
    rw [encode_eq_of_toList hcs, List.mem_append, not_or]
    exact ⟨fun hmem => h.1 (eq_of_mem_utf8EncodeChar hd hmem).symm, ih String.toList_ofList h.2⟩

end Utf8

/-! ## Marks -/

namespace Charset

variable {charset : Charset} {text : String}

/-- The code page alone has no mark. -/
theorem mark_eq_nil_iff : charset.mark = [] ↔ charset = .windows1252 := by
  cases charset <;> decide

/-- A mark is found where it stands. -/
theorem ofMark?_mark_append (hmark : charset.mark ≠ []) (rest : Bytes) :
    ofMark? (charset.mark ++ rest) = some (charset, rest) := by
  cases charset with
  | utf8 | utf16le | utf16be => rfl
  | windows1252 => exact absurd rfl hmark

/-- Every set that was found by its mark has one. -/
theorem mark_ne_nil_of_ofMark? {bytes rest : Bytes} (h : ofMark? bytes = some (charset, rest)) :
    charset.mark ≠ [] := by
  rw [ofMark?.eq_def] at h
  split at h <;> cases h <;> exact List.cons_ne_nil _ _

/-- **A text in UTF-8 looks like a mark** if and only if it starts with
U+FEFF. -/
theorem ofMark?_encode_utf8_eq_none_iff :
    ofMark? (Utf8.encode text) = none ↔ text.toList.head? ≠ some '\uFEFF' := by
  have hbytes : String.utf8EncodeChar '\uFEFF' = mark .utf8 := by decide
  rw [ne_eq, Utf8.head?_eq_some_iff, hbytes, not_exists]
  constructor
  · intro hnone rest hmark
    rw [hmark, ofMark?_mark_append (by decide)] at hnone
    cases hnone
  · intro hplain
    cases hfound : ofMark? (Utf8.encode text) with
    | none => rfl
    | some found =>
      obtain ⟨charset, rest⟩ := found
      have hmark := eq_of_ofMark? hfound
      cases charset with
      | utf8 => exact absurd hmark (hplain rest)
      -- the marks of UTF-16 begin with bytes that begin no character
      | utf16le => exact absurd (Utf8.isUTF8FirstByte_of_encode hmark) (by decide)
      | utf16be => exact absurd (Utf8.isUTF8FirstByte_of_encode hmark) (by decide)
      | windows1252 => exact absurd rfl (mark_ne_nil_of_ofMark? hfound)

end Charset

/-! ## Files -/

namespace TextEncoding

variable {encoding : TextEncoding} {bytes : Bytes} {text : String} {guess : Bytes → Charset}

/-- **A text can be told in an encoding**: behind a mark, in plain UTF-8 if
it does not look like a mark, and in a character set that is guessed if the
set holds it and its bytes are taken neither for a mark nor for UTF-8. -/
inductive Tells (guess : Bytes → Charset) : TextEncoding → String → Prop where
  | marked {charset : Charset} {text : String} (hmark : charset.mark ≠ []) :
    Tells guess ⟨charset, true⟩ text
  | plain {text : String} (hfirst : text.toList.head? ≠ some '\uFEFF') : Tells guess utf8 text
  | guessed {charset : Charset} {text : String} (hheld : ∀ c ∈ text.toList, charset.holds c)
    (hmark : Charset.ofMark? (charset.encode text) = none)
    (hother : Utf8.decode? (charset.encode text) = none)
    (hguess : guess (charset.encode text) = charset) : Tells guess ⟨charset, false⟩ text

/-- What a file was read as can be told. -/
theorem tells_of_decode (h : decode bytes guess = .ok (text, encoding)) :
    Tells guess encoding text := by
  have hbytes := encode_of_decode h
  have hheld := holds_of_decode h
  rw [decode] at h
  split at h
  case h_1 charset rest hmark =>
    split at h
    case h_1 =>
      cases h
      exact .marked (Charset.mark_ne_nil_of_ofMark? hmark)
    case h_2 => cases h
  case h_2 hmark =>
    split at h
    case h_1 hread =>
      cases h
      rw [← Utf8.decode?_eq_some_iff.1 hread] at hmark
      exact .plain (Charset.ofMark?_encode_utf8_eq_none_iff.1 hmark)
    case h_2 hother =>
      split at h
      case h_1 =>
        cases h
        have hguess := congrArg guess hbytes
        rw [← hbytes] at hmark hother
        exact .guessed hheld hmark hother hguess
      case h_2 => cases h

/-- What can be told is read from what is written for it. -/
theorem Tells.decode_encode (h : Tells guess encoding text) :
    decode (encoding.encode text) guess = .ok (text, encoding) := by
  have hreads : ∀ {charset : Charset}, (∀ c ∈ text.toList, charset.holds c) →
      charset.decode? (charset.encode text) = some text := fun hheld => by
    rw [Charset.decode?_encode, Charset.spelled_eq_self_iff.2 hheld]
  cases h with
  | @marked charset _ hmark =>
    have hheld : ∀ c ∈ text.toList, charset.holds c := by
      cases charset with
      | utf8 | utf16le | utf16be => exact fun _ _ => rfl
      | windows1252 => exact absurd rfl hmark
    have hfound : Charset.ofMark? (encode ⟨charset, true⟩ text) =
        some (charset, charset.encode text) := Charset.ofMark?_mark_append hmark _
    rw [decode, hfound]
    simp only [hreads hheld]
  | plain hfirst =>
    have hmark : Charset.ofMark? (utf8.encode text) = none :=
      Charset.ofMark?_encode_utf8_eq_none_iff.2 hfirst
    have hread : Utf8.decode? (utf8.encode text) = some text := Utf8.decode?_eq_some_iff.2 rfl
    rw [decode, hmark]
    simp only [hread]
  | @guessed charset _ hheld hmark hother hguess =>
    have hbytes : encode ⟨charset, false⟩ text = charset.encode text := rfl
    rw [hbytes, decode, hmark]
    simp only [hother, hguess, hreads hheld]

/-- **How a file is read**: as a text in an encoding if and only if its bytes
are written for them, and the text can be told in the encoding. -/
theorem decode_eq_ok_iff :
    decode bytes guess = .ok (text, encoding) ↔
      encoding.encode text = bytes ∧ Tells guess encoding text := by
  constructor
  · intro h
    exact ⟨encode_of_decode h, tells_of_decode h⟩
  · rintro ⟨rfl, htells⟩
    exact htells.decode_encode

/-- **Encodings go round**, whatever the guess is. What a file is read as is
written as the file. The other way around a text is read as it was, in the
same encoding: always behind a mark, and in plain UTF-8 if and only if it
does not start with U+FEFF. -/
theorem decode_encode_roundTrip (guess : Bytes → Charset) :
    (∀ bytes text encoding,
      decode bytes guess = .ok (text, encoding) → encoding.encode text = bytes) ∧
    (∀ charset text, charset ≠ .windows1252 →
      decode (encode ⟨charset, true⟩ text) guess = .ok (text, ⟨charset, true⟩)) ∧
    ∀ text, decode (utf8.encode text) guess = .ok (text, utf8) ↔
      text.toList.head? ≠ some '\uFEFF' := by
  refine ⟨?_, ?_, ?_⟩
  · intro bytes text encoding h
    exact (decode_eq_ok_iff.1 h).1
  · intro charset text hcharset
    exact (Tells.marked (mt Charset.mark_eq_nil_iff.1 hcharset)).decode_encode
  · intro text
    constructor
    · intro h
      cases tells_of_decode h with
      | plain hfirst => exact hfirst
      | guessed _ _ hother => cases (Utf8.decode?_eq_some_iff.2 rfl).symm.trans hother
    · intro hfirst
      exact (Tells.plain hfirst).decode_encode

/-- A surrogate pair behind its mark, and a text that starts with a second
mark. -/
theorem roundTrip_secondMark :
    decode [0xFF, 0xFE, 0x3D, 0xD8, 0x00, 0xDE] = .ok ("😀", ⟨.utf16le, true⟩) ∧
    encode ⟨.utf16le, true⟩ "😀" = [0xFF, 0xFE, 0x3D, 0xD8, 0x00, 0xDE] ∧
    Charset.utf8 ≠ .windows1252 ∧
    decode (encode ⟨.utf8, true⟩ "\uFEFFa") = .ok ("\uFEFFa", ⟨.utf8, true⟩) := by
  have hdecode : decode [0xFF, 0xFE, 0x3D, 0xD8, 0x00, 0xDE] = .ok ("😀", ⟨.utf16le, true⟩) := by
    cbv
  have hcharset : Charset.utf8 ≠ .windows1252 := by decide
  exact ⟨hdecode, (decode_encode_roundTrip _).1 _ _ _ hdecode, hcharset,
    (decode_encode_roundTrip _).2.1 .utf8 "\uFEFFa" hcharset⟩

end TextEncoding

end Remedy
