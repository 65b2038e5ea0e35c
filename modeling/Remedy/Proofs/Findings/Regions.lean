import Mathlib
import Remedy.Change.Plan
import Remedy.Proofs.Text.Guarded
/-!
# Every location has a meaning or lies outside

A location of a report may be anything: bytes that divide a character,
a line that no file has, an end ahead of its start. Finding the span it
means never goes wrong, and the span is always a part of the text
(`region?_safe`). A location has none only if its bytes do not give a part
of the text and its line is past the end.
-/

namespace Remedy

/-- **A span that cuts a part out of a text**: it runs forwards, it does not
leave the text, and both of its ends are between characters. -/
structure Span.Cuts (span : Span) (text : String) : Prop where
  ordered : span.start ≤ span.stop
  within : span.stop ≤ text.utf8ByteSize
  start : Text.isBoundary text span.start
  stop : Text.isBoundary text span.stop

/-- An offset between characters is not past the end. -/
theorem Text.le_of_isBoundary {text : String} {n : Nat} (h : isBoundary text n) :
    n ≤ text.utf8ByteSize := by
  obtain ⟨before, after, rfl, rfl⟩ := isBoundary_iff.1 h
  rw [String.utf8ByteSize_append]
  exact Nat.le_add_right _ _

/-- Two ends in order cut a part out if they are between characters. -/
theorem Span.cuts_of_boundaries {text : String} {s e : Nat} (hle : s ≤ e)
    (hs : Text.isBoundary text s) (he : Text.isBoundary text e) : Cuts ⟨s, e⟩ text :=
  ⟨hle, Text.le_of_isBoundary he, hs, he⟩

/-- How many bytes of a file are ahead of its text. -/
def TextEncoding.markSize (encoding : TextEncoding) : Nat :=
  if encoding.bom then encoding.charset.mark.length else 0

/-- **A span of the text has the bytes of a location**: the file is stored
in UTF-8 as the text is, and its mark is ahead of them. -/
def Location.Carries (l : Location) (unit : SourceUnit) (span : Span) : Prop :=
  unit.encoding.charset = .utf8 ∧ l.bytes = some (span.shift unit.encoding.markSize)

/-- The span that a location means, found step by step. -/
def Guarded.region? (unit : SourceUnit) (l : Location) : Except Halt (Option Span) :=
  match l.byteRegion? unit with
  | some span => .ok (some span)
  | none => do
    match ← offset? unit.text l.start l.columns with
    | none => .ok none
    | some start =>
      let stop ← offset? unit.text l.stop l.columns
      .ok (some ⟨start, max (stop.getD unit.text.utf8ByteSize) start⟩)

namespace TextEncoding

variable {encoding : TextEncoding} {raw n : Nat}

/-- An offset in the text is one in the file, less the mark. -/
theorem textOffset?_eq_some_iff :
    encoding.textOffset? raw = some n ↔ encoding.charset = .utf8 ∧ raw = n + encoding.markSize := by
  obtain ⟨charset, bom⟩ := encoding
  cases charset with
  | utf8 =>
    cases bom with
    | false => simp [textOffset?, markSize]
    | true =>
      have hmark : Charset.utf8.mark.length = 3 := rfl
      simp only [textOffset?, markSize, hmark, ne_eq, not_true_eq_false, if_false, if_true,
        true_and]
      split
      case isTrue hle =>
        rw [Option.some.injEq]
        omega
      case isFalse hlt =>
        constructor
        · intro h
          cases h
        · intro h
          omega
  | utf16le => simp [textOffset?]
  | utf16be => simp [textOffset?]
  | windows1252 => simp [textOffset?]

end TextEncoding

namespace Location

variable {unit : SourceUnit} {l : Location} {span : Span}

theorem textSpan?_eq_some_iff {text : String} {s e : Nat} :
    textSpan? text s e = some span ↔ span = ⟨s, e⟩ ∧ span.Cuts text := by
  rw [textSpan?]
  split
  case isTrue hcuts =>
    rw [Option.some.injEq]
    constructor
    · rintro rfl
      exact ⟨rfl, hcuts.1, hcuts.2.1, hcuts.2.2.1, hcuts.2.2.2⟩
    · rintro ⟨rfl, -⟩
      rfl
  case isFalse hcuts =>
    constructor
    · intro h
      cases h
    · rintro ⟨rfl, h⟩
      exact absurd ⟨h.ordered, h.within, h.start, h.stop⟩ hcuts

/-- **The bytes of a location give a span** if that cuts out a part of the
text which has these bytes. -/
theorem byteRegion?_eq_some_iff :
    l.byteRegion? unit = some span ↔ l.Carries unit span ∧ span.Cuts unit.text := by
  simp only [byteRegion?, Option.bind_eq_bind, Option.bind_eq_some_iff,
    TextEncoding.textOffset?_eq_some_iff, textSpan?_eq_some_iff]
  constructor
  · rintro ⟨bytes, hbytes, s, ⟨hutf8, hs⟩, e, ⟨-, he⟩, rfl, hcuts⟩
    refine ⟨⟨hutf8, ?_⟩, hcuts⟩
    rw [hbytes, Span.shift, ← hs, ← he]
  · rintro ⟨⟨hutf8, hbytes⟩, hcuts⟩
    exact ⟨_, hbytes, span.start, ⟨hutf8, rfl⟩, span.stop, ⟨hutf8, rfl⟩, rfl, hcuts⟩

/-- The lines of a location give a part of the text. -/
theorem cuts_of_lineRegion? (h : l.lineRegion? unit = some span) : span.Cuts unit.text := by
  simp only [lineRegion?, Option.bind_eq_bind, Option.bind_eq_some_iff, Option.some.injEq] at h
  obtain ⟨start, hstart, rfl⟩ := h
  have hfirst := LineIndex.isBoundary_of_offset? hstart
  have hlast : Text.isBoundary unit.text
      ((unit.lines.offset? l.stop l.columns).getD unit.text.utf8ByteSize) := by
    cases hstop : unit.lines.offset? l.stop l.columns with
    | none => exact Text.isBoundary_iff.2 ⟨unit.text, "", by rw [String.append_empty], rfl⟩
    | some stop => exact LineIndex.isBoundary_of_offset? hstop
  refine Span.cuts_of_boundaries (Nat.le_max_right _ _) hfirst ?_
  rcases max_choice ((unit.lines.offset? l.stop l.columns).getD unit.text.utf8ByteSize) start
    with hmax | hmax
  · rw [hmax]
    exact hlast
  · rw [hmax]
    exact hfirst

/-- The lines of a location give none if its start is not in the file, and
its end does not matter for that. -/
theorem lineRegion?_eq_none_iff :
    l.lineRegion? unit = none ↔ unit.lines.offset? l.start l.columns = none := by
  rw [lineRegion?]
  cases unit.lines.offset? l.start l.columns with
  | none => exact iff_of_true rfl rfl
  | some start => exact iff_of_false nofun nofun

theorem region?_eq_none_iff : l.region? unit = none ↔
    (¬ ∃ span, l.Carries unit span ∧ span.Cuts unit.text) ∧
      unit.lines.offset? l.start l.columns = none := by
  rw [region?, Option.or_eq_none_iff, lineRegion?_eq_none_iff, Option.eq_none_iff_forall_ne_some]
  simp only [ne_eq, byteRegion?_eq_some_iff, not_exists]

/-- No step on the way to the span goes wrong. -/
theorem guarded_region?_eq (unit : SourceUnit) (l : Location) :
    Guarded.region? unit l = .ok (l.region? unit) := by
  rw [Guarded.region?, region?]
  cases l.byteRegion? unit with
  | some span => rfl
  | none =>
    simp only [Guarded.offset?_eq, bind, Except.bind, lineRegion?, SourceUnit.lines]
    cases (LineIndex.ofText unit.text).offset? l.start l.columns <;> rfl

/-- **Every location has a meaning or lies outside of the file**, whatever
its lines, columns and bytes are. The span that it means is found without a
step that goes wrong, and it is a part of the text. There is none just if
no part of the text has the bytes of the location, and its start is past
the lines of the text; the start of the line behind the last one is not. -/
theorem region?_safe (unit : SourceUnit) (l : Location) :
    Guarded.region? unit l = .ok (l.region? unit) ∧
    (∀ span, l.region? unit = some span → span.Cuts unit.text) ∧
    ∀ lines, Line.Divides unit.text.toList lines →
      (l.region? unit = none ↔
        (¬ ∃ span, l.Carries unit span ∧ span.Cuts unit.text) ∧
        (lines.length < l.start.line ∨ l.start.line = lines.length ∧ 0 < l.start.column)) := by
  refine ⟨guarded_region?_eq unit l, ?_, ?_⟩
  · intro span h
    rcases Option.or_eq_some_iff.1 h with hbytes | ⟨-, hlines⟩
    · exact (byteRegion?_eq_some_iff.1 hbytes).2
    · exact cuts_of_lineRegion? hlines
  · intro lines hlines
    rw [region?_eq_none_iff, SourceUnit.lines, LineIndex.offset?_eq_none_iff,
      Line.divides_iff.1 hlines]

end Location

/-- A file with a mark and a character of two bytes, on two lines. -/
def marked : SourceUnit := ⟨⟨"a.xml"⟩, .xml, ⟨.utf8, true⟩, "é\r\nb", .plain⟩

/-- Bytes that begin inside of the mark and a line behind the last one: the
location is the end of the file. A column further it lies outside. -/
theorem region?_safe_marked :
    Guarded.region? marked ⟨⟨2, 0⟩, ⟨0, 0⟩, some ⟨2, 5⟩, .utf16⟩ = .ok (some ⟨5, 5⟩) ∧
    Span.Cuts ⟨5, 5⟩ marked.text ∧
    Location.region? marked ⟨⟨2, 1⟩, ⟨0, 0⟩, some ⟨2, 5⟩, .utf16⟩ = none := by
  have hend : Location.region? marked ⟨⟨2, 0⟩, ⟨0, 0⟩, some ⟨2, 5⟩, .utf16⟩ = some ⟨5, 5⟩ := by
    decide +kernel
  obtain ⟨hsteps, hcuts, -⟩ := Location.region?_safe marked ⟨⟨2, 0⟩, ⟨0, 0⟩, some ⟨2, 5⟩, .utf16⟩
  obtain ⟨-, -, hnone⟩ := Location.region?_safe marked ⟨⟨2, 1⟩, ⟨0, 0⟩, some ⟨2, 5⟩, .utf16⟩
  refine ⟨by rw [hsteps, hend], hcuts ⟨5, 5⟩ hend, ?_⟩
  refine (hnone [⟨['é'], some .crlf⟩, ⟨['b'], none⟩] (Line.divides_iff.2 (by decide))).2 ⟨?_, ?_⟩
  · rintro ⟨span, ⟨-, hbytes⟩, -⟩
    have hstart := congrArg Span.start (Option.some.inj hbytes)
    have hmark : marked.encoding.markSize = 3 := rfl
    rw [hmark, Span.shift] at hstart
    simp only at hstart
    omega
  · exact Or.inr ⟨rfl, by decide⟩

end Remedy
