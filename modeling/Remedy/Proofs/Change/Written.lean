import Mathlib
import Remedy.Proofs.Change.Replay
import Remedy.Proofs.Text.Encoding
/-!
# The bytes that are written for a file

The changes of a file cut its text into pieces, and encoding works part by
part, so the bytes of the file fall apart in the same way: the mark, then
for each piece what stays and what gives way, and a rest. Only what gives
way is written anew (`FileResult.exists_writtenAround`). Whether the new
text can be read from what is written is another matter: the parts that
stay can always be read, a replacement if and only if the character set of
the file holds it (`FileResult.readBack_ofFindingsBy`).
-/

namespace Remedy

open Text (Piece)

/-- What pieces are in bytes, each with one of its parts behind the gap. -/
def Text.Piece.bytes (encode : String → Bytes) (part : Piece → String) (rest : String)
    (ps : List Piece) : Bytes :=
  ps.flatMap (fun p => encode p.gap ++ encode (part p)) ++ encode rest

namespace Charset

/-- The old text of pieces is encoded piece by piece, -/
theorem encode_oldText (charset : Charset) (rest : String) (ps : List Piece) :
    charset.encode (Piece.oldText rest ps) = Piece.bytes charset.encode Piece.old rest ps := by
  induction ps with
  | nil => rfl
  | cons p ps ih =>
    simp only [Piece.oldText, Piece.bytes, encode_append, ih, List.flatMap_cons, List.append_assoc]

/-- and so is the new one. -/
theorem encode_newText (charset : Charset) (rest : String) (ps : List Piece) :
    charset.encode (Piece.newText rest ps) = Piece.bytes charset.encode Piece.new rest ps := by
  rw [← Piece.oldText_map_renewed, encode_oldText, Piece.bytes, List.flatMap_map]
  rfl

end Charset

namespace TextEncoding

/-- The bytes of a file behind its mark. -/
def body (encoding : TextEncoding) (bytes : Bytes) : Bytes :=
  if encoding.bom then bytes.drop encoding.charset.mark.length else bytes

@[simp] theorem body_encode (encoding : TextEncoding) (text : String) :
    encoding.body (encoding.encode text) = encoding.charset.encode text := by
  rw [body, encode]
  split
  case isTrue => exact List.drop_left
  case isFalse => rfl

end TextEncoding

/-- **Bytes are written around changes**: the text is cut into pieces at the
spans of the changes, the bytes of the file are its mark and the pieces with
what the changes replace, and the new bytes are the same mark and the same
pieces with the replacements. -/
structure WrittenAround (charset : Charset) (text : String) (changes : List Change)
    (bytes newBytes : Bytes) (ps : List Piece) (rest : String) : Prop where
  cut : text = Piece.oldText rest ps
  edits : changes.map Change.edit = Piece.edits 0 ps
  originals : changes.map Change.original = ps.map Piece.old
  read : bytes = Charset.markOf bytes ++ Piece.bytes charset.encode Piece.old rest ps
  written : newBytes = Charset.markOf bytes ++ Piece.bytes charset.encode Piece.new rest ps

/-- A plain file with its bytes under scripts, all of which take part. -/
def PlanContext.ofFile (bytes : Bytes) (scripts : List Script) : PlanContext :=
  { PlanContext.ofScripts "" scripts with unit := .ofBytes ⟨"a.xml"⟩ .xml bytes }

namespace FileResult

variable {differ : Differ} {ctx : PlanContext} {findings : List Finding}
variable {path : Path} {language : Language} {bytes written : Bytes} {readers : Readers}

/-! ## What is written -/

/-- Nothing is written for a file that could not be parsed. -/
theorem parsed_of_encoded (hencoded : (ofFindingsBy differ ctx findings).encoded = some written) :
    ctx.unit.parseError? = none := by
  cases herror : ctx.unit.parseError? with
  | none => rfl
  | some error =>
    rw [ofFindingsBy_of_failed differ herror] at hencoded
    cases hencoded

/-- A file that something is written for was decoded. -/
theorem decode_of_encoded (hunit : ctx.unit = SourceUnit.ofBytes path language bytes readers)
    (hencoded : (ofFindingsBy differ ctx findings).encoded = some written) :
    TextEncoding.decode bytes readers.guess = .ok (ctx.unit.text, ctx.unit.encoding) := by
  have hparsed := parsed_of_encoded hencoded
  rw [hunit, SourceUnit.ofBytes] at hparsed
  rw [hunit, SourceUnit.ofBytes]
  split
  case h_1 charset hdecode =>
    rw [hdecode] at hparsed
    cases hparsed
  case h_2 text encoding hdecode => exact hdecode

/-- What is written for a file is its new text. -/
theorem encoded_eq (hencoded : (ofFindingsBy differ ctx findings).encoded = some written) :
    (ofFindingsBy differ ctx findings).changes = (executed ctx findings).changes ∧
      (ofFindingsBy differ ctx findings).transformed = some (newText ctx findings) ∧
      (ofFindingsBy differ ctx findings).encoding = ctx.unit.encoding ∧
      written = ctx.unit.encoding.encode (newText ctx findings) := by
  have hparsed := parsed_of_encoded hencoded
  rw [ofFindingsBy_of_parsed differ hparsed, ofParsed] at hencoded ⊢
  dsimp only at hencoded ⊢
  split at hencoded
  case isTrue hchanged =>
    cases hencoded
    exact ⟨rfl, if_pos hchanged, rfl, rfl⟩
  case isFalse => cases hencoded

/-- The originals of the changes are the old parts of their pieces. -/
theorem map_original_executed {ps : List Piece} {rest : String}
    (htext : ctx.unit.text = Piece.oldText rest ps)
    (hedits : (executed ctx findings).changes.map Change.edit = Piece.edits 0 ps) :
    (executed ctx findings).changes.map Change.original = ps.map Piece.old := by
  have hslices := Piece.map_slice?_edits "" rest ps
  rw [String.empty_append, ← htext] at hslices
  have horiginal : ∀ c ∈ (executed ctx findings).changes,
      Text.slice? ctx.unit.text c.edit.1 = some c.original := by
    intro c hc
    obtain ⟨m, -, hmade⟩ := madeFor_executed hc
    exact hmade.original
  apply List.map_injective_iff.2 (Option.some_injective String)
  calc ((executed ctx findings).changes.map Change.original).map some
      = ((executed ctx findings).changes.map Change.edit).map
          fun e => Text.slice? ctx.unit.text e.1 := by
        rw [List.map_map, List.map_map]
        exact List.map_congr_left fun c hc => (horiginal c hc).symm
    _ = ps.map fun p => some p.old := by
        rw [hedits]
        exact hslices
    _ = (ps.map Piece.old).map some := by rw [List.map_map]; rfl

/-- **What is written for a file differs from the file in the replacements
only**, whatever the codemods do, in every encoding and whatever the file is
read with: what is read of the file and what is written for it fall into the
same mark and pieces. -/
theorem exists_writtenAround (hunit : ctx.unit = SourceUnit.ofBytes path language bytes readers)
    (hencoded : (ofFindingsBy differ ctx findings).encoded = some written) :
    TextEncoding.decode bytes readers.guess = .ok (ctx.unit.text, ctx.unit.encoding) ∧
      ∃ ps rest, WrittenAround ctx.unit.encoding.charset ctx.unit.text
        (ofFindingsBy differ ctx findings).changes bytes written ps rest := by
  have hdecode := decode_of_encoded hunit hencoded
  obtain ⟨hchanges, -, -, hwritten⟩ := encoded_eq hencoded
  obtain ⟨ps, rest, htext, hedits⟩ := exists_pieces_of_executed ctx findings
  rw [hchanges]
  refine ⟨hdecode, ps, rest, htext, hedits, map_original_executed htext hedits, ?_, ?_⟩
  · rw [← Charset.encode_oldText, ← htext, ← TextEncoding.encode_eq hdecode,
      TextEncoding.encode_of_decode hdecode]
  · rw [hwritten, TextEncoding.encode_eq hdecode, newText_eq_of_pieces htext hedits,
      Charset.encode_newText]

/-- A file in UTF-16 with its mark, a surrogate pair and a digit, which two
digits replace. -/
def pairAndDigit : PlanContext :=
  .ofFile [0xFF, 0xFE, 0x3D, 0xD8, 0x00, 0xDE, 0x31, 0x00] [.putting "swap" "1" "22" [] 0 0]

theorem writtenAround_pairAndDigit :
    (ofFindings pairAndDigit []).encoded =
      some [0xFF, 0xFE, 0x3D, 0xD8, 0x00, 0xDE, 0x32, 0x00, 0x32, 0x00] ∧
    ∃ ps rest, WrittenAround .utf16le "😀1" (ofFindings pairAndDigit []).changes
      [0xFF, 0xFE, 0x3D, 0xD8, 0x00, 0xDE, 0x31, 0x00]
      [0xFF, 0xFE, 0x3D, 0xD8, 0x00, 0xDE, 0x32, 0x00, 0x32, 0x00] ps rest := by
  have hencoded : (ofFindingsBy .byScript pairAndDigit []).encoded =
      some [0xFF, 0xFE, 0x3D, 0xD8, 0x00, 0xDE, 0x32, 0x00, 0x32, 0x00] := by cbv
  have hbytes : pairAndDigit.unit = .ofBytes ⟨"a.xml"⟩ .xml
      [0xFF, 0xFE, 0x3D, 0xD8, 0x00, 0xDE, 0x31, 0x00] := rfl
  have hunit : pairAndDigit.unit = ⟨⟨"a.xml"⟩, .xml, ⟨.utf16le, true⟩, "😀1", .plain⟩ := by cbv
  obtain ⟨-, ps, rest, hwritten⟩ := exists_writtenAround hbytes hencoded
  rw [hunit] at hwritten
  exact ⟨hencoded, ps, rest, hwritten⟩

/-! ## What is read back -/

/-- The character set holds the new text if and only if it holds the
replacements: the rest of it was read from the file. -/
theorem holds_newText_iff (hunit : ctx.unit = SourceUnit.ofBytes path language bytes readers)
    (hencoded : (ofFindingsBy differ ctx findings).encoded = some written) :
    (∀ ch ∈ (newText ctx findings).toList, ctx.unit.encoding.charset.holds ch) ↔
      ∀ c ∈ (executed ctx findings).changes, ∀ ch ∈ c.replacement.toList,
        ctx.unit.encoding.charset.holds ch := by
  have hold := TextEncoding.holds_of_decode (decode_of_encoded hunit hencoded)
  obtain ⟨ps, rest, htext, hedits⟩ := exists_pieces_of_executed ctx findings
  have hreplacements : (executed ctx findings).changes.map Change.replacement =
      ps.map Piece.new := by
    rw [← Piece.map_snd_edits 0, ← hedits, List.map_map]
    rfl
  rw [htext] at hold
  rw [newText_eq_of_pieces htext hedits]
  constructor
  · intro hheld c hc ch hch
    obtain ⟨p, hp, hpnew⟩ := List.mem_map.1 (hreplacements ▸ List.mem_map_of_mem hc)
    rw [← hpnew] at hch
    exact hheld ch (Piece.mem_newText.2 (.inl ⟨p, hp, .inr hch⟩))
  · intro hheld ch hch
    rcases Piece.mem_newText.1 hch with ⟨p, hp, hgap | hpnew⟩ | hrest
    · exact hold ch (Piece.mem_oldText.2 (.inl ⟨p, hp, .inl hgap⟩))
    · obtain ⟨c, hc, hreplacement⟩ := List.mem_map.1 (hreplacements ▸ List.mem_map_of_mem hp)
      rw [← hreplacement] at hpnew
      exact hheld c hc ch hpnew
    · exact hold ch (Piece.mem_oldText.2 (.inr hrest))

/-- **What a result writes is read back**: behind its mark it is the new
text as its character set spells it, and it is the new text itself if and
only if the set holds every character that a replacement brings in. -/
structure ReadBack (result : FileResult) (new : String) (written : Bytes) : Prop where
  spelled : result.encoding.charset.decode? (result.encoding.body written) =
    some (result.encoding.charset.spelled new)
  same_iff : result.encoding.charset.decode? (result.encoding.body written) = some new ↔
    ∀ c ∈ result.changes, ∀ ch ∈ c.replacement.toList, result.encoding.charset.holds ch

/-- **What is written for a file can always be read**, whatever the codemods
do. -/
theorem readBack_ofFindingsBy {new : String}
    (hunit : ctx.unit = SourceUnit.ofBytes path language bytes readers)
    (htransformed : (ofFindingsBy differ ctx findings).transformed = some new)
    (hencoded : (ofFindingsBy differ ctx findings).encoded = some written) :
    ReadBack (ofFindingsBy differ ctx findings) new written := by
  obtain ⟨hchanges, hnew, hencoding, hwritten⟩ := encoded_eq hencoded
  have hsame : newText ctx findings = new := by
    rw [htransformed] at hnew
    exact (Option.some.inj hnew).symm
  have hread : ctx.unit.encoding.charset.decode? (ctx.unit.encoding.body written) =
      some (ctx.unit.encoding.charset.spelled new) := by
    rw [hwritten, TextEncoding.body_encode, Charset.decode?_encode, hsame]
  constructor
  case spelled => rw [hencoding, hread]
  case same_iff =>
    rw [hencoding, hchanges, hread, Option.some.injEq, Charset.spelled_eq_self_iff, ← hsame]
    exact holds_newText_iff hunit hencoded

/-- What stands ahead of a price, in the code page. -/
def beforePrice : Bytes := [0x70, 0x72, 0x69, 0x63, 0x65, 0x20, 0x80, 0x20]

/-- A file in the code page, with a digit that a text replaces. -/
def priceTag (text : String) : PlanContext :=
  .ofFile (beforePrice ++ [0x35, 0x0A]) [.putting "swap" "5" text [] 0 0]

theorem readBack_priceTag :
    (ofFindings (priceTag "½") []).transformed = some "price € ½\n" ∧
    (ofFindings (priceTag "½") []).encoded = some (beforePrice ++ [0xBD, 0x0A]) ∧
    ReadBack (ofFindings (priceTag "½") []) "price € ½\n" (beforePrice ++ [0xBD, 0x0A]) := by
  have hunit : (priceTag "½").unit = .ofBytes ⟨"a.xml"⟩ .xml (beforePrice ++ [0x35, 0x0A]) := rfl
  have htransformed : (ofFindingsBy .byScript (priceTag "½") []).transformed =
      some "price € ½\n" := by cbv
  have hencoded : (ofFindingsBy .byScript (priceTag "½") []).encoded =
      some (beforePrice ++ [0xBD, 0x0A]) := by cbv
  exact ⟨htransformed, hencoded, readBack_ofFindingsBy hunit htransformed hencoded⟩

/-- The page does not hold this replacement: what is written reads as a
reference, and the result tells another text than the file gets. -/
theorem misread_priceTag :
    (ofFindings (priceTag "😀") []).transformed = some "price € 😀\n" ∧
    ∃ written, (ofFindings (priceTag "😀") []).encoded = some written ∧
      (ofFindings (priceTag "😀") []).encoding.charset.decode?
        ((ofFindings (priceTag "😀") []).encoding.body written) = some "price € &#128512;\n" ∧
      (ofFindings (priceTag "😀") []).encoding.charset.decode?
        ((ofFindings (priceTag "😀") []).encoding.body written) ≠ some "price € 😀\n" := by
  have hencoded : (ofFindingsBy .byScript (priceTag "😀") []).encoded =
      some (beforePrice ++ [0x26, 0x23, 0x31, 0x32, 0x38, 0x35, 0x31, 0x32, 0x3B, 0x0A]) := by cbv
  have hread : Charset.windows1252.decode?
      (beforePrice ++ [0x26, 0x23, 0x31, 0x32, 0x38, 0x35, 0x31, 0x32, 0x3B, 0x0A]) =
        some "price € &#128512;\n" := by cbv
  have hunit : (priceTag "😀").unit.encoding = ⟨.windows1252, false⟩ := by cbv
  have hencoding : (ofFindings (priceTag "😀") []).encoding = ⟨.windows1252, false⟩ :=
    (encoded_eq hencoded).2.2.1.trans hunit
  rw [hencoding]
  refine ⟨by cbv, _, hencoded, hread, ?_⟩
  intro hsame
  have htext := Option.some.inj (hread.symm.trans hsame)
  exact absurd htext (by decide)

end FileResult

end Remedy
