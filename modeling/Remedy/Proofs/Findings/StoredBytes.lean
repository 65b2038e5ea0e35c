import Mathlib
import Remedy.Proofs.Findings.Coordinates
import Remedy.Proofs.Findings.Regions
import Remedy.Proofs.Text.Encoding
/-!
# Regions that are given in bytes alone

A region may tell where bytes of the stored file are, and nothing about
lines. In a file in UTF-8 such a region means the part of the text that is
stored there (`region?_of_bytes`). Wherever no part is, and in every other
character set, it is read as if it began on the first line: it means some
part of the file all the same, and without columns that is the first line
(`firstLine_wide`).
-/

namespace Remedy

/-- **A range of the stored file holds a part of its text**: the text ahead
of the part is stored ahead of the range, behind the mark, and the part is
what the range encodes. -/
def SourceUnit.Stores (unit : SourceUnit) (range part : Span) : Prop :=
  ∃ before middle after, unit.text = before ++ middle ++ after ∧
    part = ⟨before.utf8ByteSize, before.utf8ByteSize + middle.utf8ByteSize⟩ ∧
    range = ⟨(unit.encoding.encode before).length,
      (unit.encoding.encode before).length + (unit.encoding.charset.encode middle).length⟩

/-- The bytes of the file in a range are those of the part that it holds. -/
theorem SourceUnit.Stores.bytes_eq {unit : SourceUnit} {range part : Span} {bytes : Bytes}
    {guess : Bytes → Charset} (h : unit.Stores range part)
    (hread : TextEncoding.decode bytes guess = .ok (unit.text, unit.encoding)) :
    ∃ piece, Text.slice? unit.text part = some piece ∧
      (bytes.drop range.start).take range.length = unit.encoding.charset.encode piece := by
  obtain ⟨before, middle, after, htext, rfl, rfl⟩ := h
  have hbytes : bytes = unit.encoding.encode before ++
      (unit.encoding.charset.encode middle ++ unit.encoding.charset.encode after) := by
    rw [← TextEncoding.encode_of_decode hread, htext, TextEncoding.encode, TextEncoding.encode,
      Charset.encode_append, Charset.encode_append, List.append_assoc, List.append_assoc]
  refine ⟨middle, ?_, ?_⟩
  · rw [htext]
    exact Text.slice?_append before middle after
  · rw [hbytes, Span.length, Nat.add_sub_cancel_left, List.drop_left, List.take_left]

theorem Utf8.length_encode (text : String) : (encode text).length = text.utf8ByteSize := by
  rw [encode, Array.length_toList, ← String.size_toByteArray]
  rfl

theorem TextEncoding.length_encode (encoding : TextEncoding) (text : String) :
    (encoding.encode text).length =
      encoding.markSize + (encoding.charset.encode text).length := by
  rw [encode, List.length_append, markSize]
  split <;> rfl

/-- In UTF-8 a part is stored where it is in the text, behind the mark. -/
theorem SourceUnit.stores_iff {unit : SourceUnit} {range part : Span}
    (hutf8 : unit.encoding.charset = .utf8) :
    unit.Stores range part ↔ part.Cuts unit.text ∧ range = part.shift unit.encoding.markSize := by
  have hsize : ∀ text, (unit.encoding.charset.encode text).length = text.utf8ByteSize := by
    intro text
    rw [hutf8]
    exact Utf8.length_encode text
  have hmark := unit.encoding.length_encode
  constructor
  · rintro ⟨before, middle, after, htext, rfl, rfl⟩
    have hstart : Text.isBoundary unit.text before.utf8ByteSize :=
      Text.isBoundary_iff.2 ⟨before, middle ++ after, by rw [htext, String.append_assoc], rfl⟩
    have hstop : Text.isBoundary unit.text (before.utf8ByteSize + middle.utf8ByteSize) :=
      Text.isBoundary_iff.2 ⟨before ++ middle, after, htext, by rw [String.utf8ByteSize_append]⟩
    refine ⟨Span.cuts_of_boundaries (Nat.le_add_right _ _) hstart hstop, ?_⟩
    rw [hmark, hsize, hsize, Span.shift, Span.mk.injEq]
    constructor <;> simp only <;> omega
  · rintro ⟨hcuts, rfl⟩
    obtain ⟨before, middle, after, htext, hstart, hstop⟩ :=
      Text.exists_parts hcuts.start hcuts.stop hcuts.ordered
    refine ⟨before, middle, after, htext, ?_, ?_⟩
    · rw [← hstop, ← hstart]
    · rw [hmark, hsize, hsize, Span.shift, hstart, hstop, Span.mk.injEq]
      constructor <;> omega

namespace Sarif.Region

variable {r : Region} {columns : ColumnUnit} {l : Location} {offset : Nat}

/-- The bytes that a region gives, from an offset on. -/
def range (r : Region) (offset : Nat) : Span := ⟨offset, offset + r.byteLength.getD 0⟩

/-- The region on the first line, and without bytes. -/
def onFirstLine (r : Region) : Region :=
  { r with startLine := some 1, byteOffset := none, byteLength := none }

/-- A region without a line is read as on the first line, but for its
bytes. -/
theorem location?_onFirstLine (hline : r.startLine = none) (hoffset : r.byteOffset = some offset)
    (h : r.location? columns = some l) :
    l.bytes = some (r.range offset) ∧ l.start.line = 0 ∧
      r.onFirstLine.location? columns = some { l with bytes := none } := by
  simp only [location?, firstLine?, bytes?, hline, hoffset, Option.isSome_some, if_true,
    Option.bind_eq_bind, Option.bind_some, Option.bind_eq_some_iff] at h
  obtain ⟨bytes, hbytes, hl⟩ := h
  split at hbytes
  case isFalse => cases hbytes
  case isTrue =>
    cases hbytes
    cases hl
    exact ⟨rfl, rfl, rfl⟩

/-- Without columns and an end, the first line is meant with its break. -/
theorem region?_onFirstLine {unit : SourceUnit} {line : Line} {behind : List Line}
    (hstart : r.startColumn = none) (hlast : r.endLine = none) (hend : r.endColumn = none)
    (hlines : Line.Divides unit.text.toList (line :: behind)) :
    (r.onFirstLine.location? columns).bind (·.region? unit) = some ⟨0, line.size⟩ := by
  have honly : r.onFirstLine = wholeLine 0 := by
    simp only [onFirstLine, wholeLine, hstart, hlast, hend]
  obtain ⟨hfirst, hnext⟩ := @Text.offsets_of_line unit.text [] behind line columns hlines
  rw [List.flatMap_nil, List.length_nil] at hfirst hnext
  rw [honly, location?_wholeLine, Option.bind_some]
  have hzero : Text.byteSize [] = 0 := rfl
  rw [hzero] at hfirst hnext
  rw [Nat.zero_add line.size] at hnext
  exact Location.region?_of_offsets (Nat.zero_le _) hfirst hnext

/-- Every text has a first line, so a column of it is always found. -/
theorem exists_region?_firstLine (unit : SourceUnit) (hfirst : l.start.line = 0) :
    ∃ span, l.lineRegion? unit = some span := by
  rw [← Option.isSome_iff_exists, Option.isSome_iff_ne_none, ne_eq,
    Location.lineRegion?_eq_none_iff, SourceUnit.lines, LineIndex.offset?_eq_none_iff, hfirst]
  have hlines := List.length_pos_iff.2 (Line.scan_ne_nil unit.text)
  omega

/-- **What a region in bytes alone means.** If the file is in UTF-8 and a
part of its text is stored in the bytes, the region means that part. In
every other case it means the part of the file that it would mean on the
first line without its bytes, and there always is one; it is the whole first
line if there are no columns and no end. -/
theorem region?_of_bytes (hline : r.startLine = none) (hoffset : r.byteOffset = some offset)
    (h : r.location? columns = some l) (unit : SourceUnit) :
    (unit.encoding.charset = .utf8 → ∀ part, unit.Stores (r.range offset) part →
      l.region? unit = some part) ∧
    ((unit.encoding.charset = .utf8 → ∀ part, ¬ unit.Stores (r.range offset) part) →
      (∃ span, l.region? unit = some span ∧
        (r.onFirstLine.location? columns).bind (·.region? unit) = some span) ∧
      (r.startColumn = none → r.endLine = none → r.endColumn = none →
        ∀ line behind, Line.Divides unit.text.toList (line :: behind) →
          l.region? unit = some ⟨0, line.size⟩)) := by
  obtain ⟨hbytes, hzero, hfirst⟩ := location?_onFirstLine hline hoffset h
  constructor
  · intro hutf8 part hstores
    obtain ⟨hcuts, hrange⟩ := (SourceUnit.stores_iff hutf8).1 hstores
    have hregion := Location.byteRegion?_eq_some_iff.2 ⟨⟨hutf8, hbytes.trans (by rw [hrange])⟩, hcuts⟩
    rw [Location.region?, hregion, Option.some_or]
  · intro hnone
    have hbyteless : l.byteRegion? unit = none := by
      rw [Option.eq_none_iff_forall_ne_some]
      intro part hpart
      obtain ⟨⟨hutf8, hcarries⟩, hcuts⟩ := Location.byteRegion?_eq_some_iff.1 hpart
      rw [hbytes, Option.some.injEq] at hcarries
      exact hnone hutf8 part ((SourceUnit.stores_iff hutf8).2 ⟨hcuts, hcarries⟩)
    -- without its bytes the location is that of the region on the first line
    have hsame : l.region? unit = (r.onFirstLine.location? columns).bind (·.region? unit) := by
      rw [hfirst, Option.bind_some, Location.region?, hbyteless]
      rfl
    obtain ⟨span, hspan⟩ := exists_region?_firstLine unit hzero
    refine ⟨⟨span, ?_, ?_⟩, ?_⟩
    · rw [Location.region?, hbyteless, Option.none_or, hspan]
    · rw [← hsame, Location.region?, hbyteless, Option.none_or, hspan]
    · intro hstart hlast hend line behind hlines
      rw [hsame]
      exact region?_onFirstLine hstart hlast hend hlines

end Sarif.Region

/-- A file of two lines in UTF-16, with its mark. -/
def wide : SourceUnit :=
  SourceUnit.ofBytes ⟨"a.xml"⟩ .xml [0xFF, 0xFE, 0x61, 0x00, 0x0A, 0x00, 0x62, 0x00]

/-- The region of two bytes from an offset on. -/
def Sarif.Region.pair (offset : Nat) : Sarif.Region := ⟨none, none, none, none, some offset, some 2⟩

/-- Two bytes of UTF-8 behind the mark of a file mean their character. The
last two bytes of the file in UTF-16 hold all of its second line, and mean
the first one. -/
theorem Sarif.Region.region?_of_pair :
    (∃ l, (pair 3).location? .utf16 = some l ∧ marked.Stores ⟨3, 5⟩ ⟨0, 2⟩ ∧
      l.region? marked = some ⟨0, 2⟩) ∧
    ∃ l, (pair 6).location? .utf16 = some l ∧ wide.Stores ⟨6, 8⟩ ⟨2, 3⟩ ∧
      l.region? wide = some ⟨0, 2⟩ := by
  have hmarked : marked.Stores ⟨3, 5⟩ ⟨0, 2⟩ := ⟨"", "é", "\r\nb", by decide +kernel⟩
  have hwide : wide.Stores ⟨6, 8⟩ ⟨2, 3⟩ := ⟨"a\n", "b", "", by decide +kernel⟩
  have hcharset : wide.encoding.charset ≠ .utf8 := by decide +kernel
  have hlines : Line.Divides wide.text.toList [⟨['a'], some .lf⟩, ⟨['b'], none⟩] :=
    Line.divides_iff.2 (by decide +kernel)
  obtain ⟨hstored, -⟩ := @region?_of_bytes (pair 3) .utf16 _ _ rfl rfl rfl marked
  obtain ⟨-, hfirst⟩ := @region?_of_bytes (pair 6) .utf16 _ _ rfl rfl rfl wide
  have hlost := hfirst fun hutf8 => absurd hutf8 hcharset
  exact ⟨⟨_, rfl, hmarked, hstored rfl ⟨0, 2⟩ hmarked⟩,
    _, rfl, hwide, hlost.2 rfl rfl rfl _ _ hlines⟩

/-- **A region in bytes alone may mean a part that is not stored there.** -/
theorem Sarif.Region.not_stores_of_region? :
    ¬ ∀ (r : Region) (columns : ColumnUnit) (offset : Nat) (l : Location) (unit : SourceUnit)
      (span : Span), r.startLine = none → r.byteOffset = some offset →
      r.location? columns = some l → l.region? unit = some span →
      unit.Stores (r.range offset) span := by
  intro h
  have hstores := h (pair 6) .utf16 6 ⟨⟨0, 0⟩, ⟨1, 0⟩, some ⟨6, 8⟩, .utf16⟩ wide ⟨0, 2⟩ rfl rfl
    (by decide +kernel) (by decide +kernel)
  obtain ⟨before, middle, after, -, hpart, hrange⟩ := hstores
  -- the first line has nothing ahead of it, and so only the mark would be ahead of the range
  have hnil : before = "" := String.utf8ByteSize_eq_zero_iff.1 (Span.mk.inj hpart).1.symm
  subst hnil
  have hstart : 6 = (wide.encoding.encode "").length := (Span.mk.inj hrange).1
  revert hstart
  decide +kernel

end Remedy
