import Mathlib
import Remedy.Proofs.Text.Guarded
import Remedy.Proofs.Text.Positions
import Remedy.Proofs.Text.Sweeps
/-!
# The line index as a map

A line index leads from the offsets of a text to positions and back. Its lines
are cut out of the text, the content and the ending of each one as a slice
(`LineIndex.line_eq`), and together they are the text (`join_lines`). The line
of an offset is found among the starts by a search for the last one that is
not behind the offset (`Guarded.position_eq`). All of what a reader of
positions relies on is put together in `LineIndex.Maps`, and it holds of every
text whose numbers fit 32 bits (`LineIndex.maps_ofText`).
-/

namespace Remedy

namespace LineIndex

variable {lines ahead behind : List Line} {line : Line} {text : String} {o n : Nat}

/-! ### Starts -/

theorem le_of_mem_startsFrom {b s : Nat} (h : s ∈ startsFrom b lines) : b ≤ s := by
  induction lines generalizing b with
  | nil => cases h
  | cons line lines ih =>
    rcases List.mem_cons.1 h with rfl | hlater
    · exact Nat.le_refl _
    · exact (Nat.le_add_right b line.size).trans (ih hlater)

/-- Lines start one after the other, if those that others follow take up
some bytes. -/
theorem pairwise_startsFrom (b : Nat) {last : Line} (hahead : ∀ line ∈ ahead, 0 < line.size) :
    (startsFrom b (ahead ++ [last])).Pairwise (· < ·) := by
  induction ahead generalizing b with
  | nil => exact List.pairwise_singleton _ b
  | cons first ahead ih =>
    obtain ⟨hfirst, hlater⟩ := List.forall_mem_cons.1 hahead
    refine List.pairwise_cons.2 ⟨?_, ih (b + first.size) hlater⟩
    intro s hs
    have hle := le_of_mem_startsFrom hs
    omega

/-- **The starts of a text increase.** -/
theorem pairwise_starts (text : String) : (ofText text).starts.Pairwise (· < ·) := by
  obtain ⟨ended, begun, hscan, hended, -⟩ :=
    Line.exists_ended (Line.divides_iff.2 (Eq.refl (Line.scan text)))
  rw [starts, ofText, hscan]
  exact pairwise_startsFrom 0 fun line hline => Line.size_pos (hended line hline)

/-! ### Contents -/

/-- The content of a line, cut out of the text. -/
def contentAt? (text : String) (n : Nat) : Option String :=
  ((ofText text).lineSpan? n).bind (Text.slice? text)

/-- What ends a line: it stands between its content and the start of the next
line, or the end of the text. -/
def endingAt? (text : String) (n : Nat) : Option String :=
  ((ofText text).lineSpan? n).bind fun span =>
    Text.slice? text ⟨span.stop, ((ofText text).starts[n + 1]?).getD text.utf8ByteSize⟩

/-- **A line as it stands in the text**: its content and its ending are
slices. -/
theorem line_eq (text : String) (n : Nat) :
    contentAt? text n = (Line.scan text)[n]?.map (fun line => String.ofList line.content) ∧
    endingAt? text n = (Line.scan text)[n]?.map fun line =>
      String.ofList ((line.ending.map LineBreak.chars).getD []) := by
  rcases Nat.lt_or_ge n (Line.scan text).length with hlt | hge
  · obtain ⟨ahead, line, behind, hlines, rfl, -, htext⟩ := exists_line hlt
    have hget : (Line.scan text)[ahead.length]? = some line := by
      rw [hlines, List.getElem?_append_right (Nat.le_refl _), Nat.sub_self]
      rfl
    have hnext := startsFrom_getElem?_succ hlines
    have hsize := size_ofText text
    rw [ofText] at hsize
    rw [hsize, Line.size, Line.chars, Text.byteSize_append, ← Nat.add_assoc] at hnext
    -- the line is cut twice: behind what is ahead of it, and behind its content
    have hcontent := Text.slice?_ofList (ahead.flatMap Line.chars) line.content
      ((line.ending.map LineBreak.chars).getD [] ++ behind.flatMap Line.chars)
    have hending := Text.slice?_ofList (ahead.flatMap Line.chars ++ line.content)
      ((line.ending.map LineBreak.chars).getD []) (behind.flatMap Line.chars)
    have hparts : String.ofList (ahead.flatMap Line.chars ++ line.content ++
        (line.ending.map LineBreak.chars).getD [] ++ behind.flatMap Line.chars) = text := by
      rw [List.append_assoc (ahead.flatMap Line.chars), ← Line.chars, ← htext, String.ofList_toList]
    rw [← List.append_assoc, hparts] at hcontent
    rw [hparts, Text.byteSize_append] at hending
    rw [contentAt?, endingAt?, lineSpan?_of_scan hlines, hget, Option.bind_some, Option.bind_some,
      hcontent, starts, ofText, hnext, hending]
    exact ⟨rfl, rfl⟩
  · rw [contentAt?, endingAt?, lineSpan?_eq_none hge, List.getElem?_eq_none hge]
    exact ⟨rfl, rfl⟩

/-- **The contents with their endings make up the text.** -/
theorem join_lines (text : String) : String.join ((List.range (ofText text).starts.length).map
    fun n => (contentAt? text n).getD "" ++ (endingAt? text n).getD "") = text := by
  have hlines : (List.range (ofText text).starts.length).map
      (fun n => (contentAt? text n).getD "" ++ (endingAt? text n).getD "") =
      (Line.scan text).map fun line => String.ofList line.chars := by
    refine List.ext_getElem (by simp [length_starts]) fun n _ hn => ?_
    rw [List.length_map] at hn
    obtain ⟨hcontent, hending⟩ := line_eq text n
    rw [List.getElem?_eq_getElem hn, Option.map_some] at hcontent hending
    rw [List.getElem_map, List.getElem_range, hcontent, hending, Option.getD_some,
      Option.getD_some, List.getElem_map, ← String.ofList_append, Line.chars]
  apply String.toList_inj.1
  rw [hlines, String.toList_join, List.flatMap_map]
  simp only [String.toList_ofList]
  exact Line.flatMap_chars_scan text

/-! ### A search for the line -/

/-- The starts that are not behind an offset are those of its line and of the
lines ahead. -/
theorem length_takeWhile_startsFrom (b : Nat) (h : IsOn o ahead line behind) :
    ((startsFrom b (ahead ++ line :: behind)).takeWhile (· ≤ b + o)).length =
      ahead.length + 1 := by
  obtain ⟨hstart, hnext⟩ := h
  induction ahead generalizing b o with
  | nil =>
    rw [List.nil_append, startsFrom, List.takeWhile_cons_of_pos (by simp), List.length_cons,
      List.length_nil]
    cases behind with
    | nil => rfl
    | cons next behind =>
      have hlt : o < line.size := by simpa [Text.byteSize] using hnext
      rw [startsFrom, List.takeWhile_cons_of_neg (by simpa using hlt), List.length_nil]
  | cons first ahead ih =>
    rw [byteSize_flatMap_cons] at hstart hnext
    have hlater := @ih (o - first.size) (b + first.size) (by omega)
      (hnext.imp_right fun hlt => by omega)
    have hoffset : b + first.size + (o - first.size) = b + o := by omega
    rw [hoffset] at hlater
    rw [List.cons_append, startsFrom, List.takeWhile_cons_of_pos (by simp), List.length_cons,
      hlater, List.length_cons]

end LineIndex

namespace Text

variable {before after : List Char} {c : Char} {o : Nat}

/-- No place between characters is inside of a character. -/
theorem not_isBoundary_within (hlt : byteSize before < o)
    (hgt : o < byteSize before + c.utf8Size) :
    ¬ isBoundary (String.ofList (before ++ c :: after)) o := by
  intro ho
  obtain ⟨first, last, htext, hsize⟩ := isBoundary_iff.1 ho
  rw [String.ofList_append] at htext
  obtain ⟨middle, hmiddle, hlast⟩ :=
    exists_between htext (by rw [← byteSize_eq, ← hsize]; exact Nat.le_of_lt hlt)
  rw [hmiddle, String.utf8ByteSize_append, ← byteSize_eq, utf8ByteSize_eq middle] at hsize
  have hchars := congrArg String.toList hlast
  rw [String.toList_ofList, String.toList_append] at hchars
  cases hm : middle.toList with
  | nil =>
    rw [hm, byteSize] at hsize
    omega
  | cons d ds =>
    rw [hm, List.cons_append, List.cons.injEq] at hchars
    rw [hm, byteSize, ← hchars.1] at hsize
    omega

end Text

namespace Guarded

variable {text : String} {o k : Nat}

/-- The last place between characters that is not behind an offset. -/
def floor (text : String) : Nat → Nat
  | 0 => 0
  | o + 1 => if Text.isBoundary text (o + 1) then o + 1 else floor text o

/-- The position of an offset: its line is the last one that does not start
behind it, and the column counts the characters between. -/
def position (text : String) (o : Nat) : Except Halt Position :=
  let stop := floor text (min o text.utf8ByteSize)
  let starts := (LineIndex.ofText text).starts
  let line := (starts.takeWhile (· ≤ stop)).length - 1
  match starts[line]? with
  | none => .error .range
  | some start => do
    let piece ← slice text ⟨start, stop⟩
    .ok ⟨line, piece.length⟩

theorem floor_eq (hk : Text.isBoundary text k) (hle : k ≤ o)
    (hbetween : ∀ j, k < j → j ≤ o → ¬ Text.isBoundary text j) : floor text o = k := by
  induction o with
  | zero => rw [floor, Nat.le_zero.1 hle]
  | succ o ih =>
    rw [floor]
    split
    case isTrue ho =>
      rcases Nat.lt_or_eq_of_le hle with hlt | heq
      · exact absurd ho (hbetween (o + 1) hlt (Nat.le_refl _))
      · exact heq.symm
    case isFalse ho =>
      have hne : k ≠ o + 1 := fun h => ho (h ▸ hk)
      exact ih (by omega) fun j hlt hj => hbetween j hlt (by omega)

variable {ahead behind : List Line} {line : Line}

/-- **What is taken of a line ends at the last place between characters** that
is not behind the offset. -/
theorem floor_of_isOn (hlines : Line.scan text = ahead ++ line :: behind)
    (hon : LineIndex.IsOn o ahead line behind) : floor text (min o text.utf8ByteSize) =
      Text.byteSize (ahead.flatMap Line.chars) +
        Text.byteSize (LineIndex.taken o ahead line) := by
  have htext := LineIndex.eq_around_taken hlines o
  have hlength := LineIndex.length_taken o ahead line
  have hfits := LineIndex.byteSize_taken_le o ahead line
  have hstart := hon.start_le
  generalize hrest : line.chars.drop (LineIndex.taken o ahead line).length ++
    behind.flatMap Line.chars = rest at htext
  have hsize : text.utf8ByteSize = Text.byteSize (ahead.flatMap Line.chars) +
      Text.byteSize (LineIndex.taken o ahead line) + Text.byteSize rest := by
    conv_lhs => rw [htext]
    rw [← Text.byteSize_eq, Text.byteSize_append, Text.byteSize_append]
  refine floor_eq ?_ (by omega) fun j hlt hj hboundary => ?_
  · rw [htext, String.ofList_append]
    exact Text.isBoundary_iff.2
      ⟨_, _, rfl, by rw [← Text.byteSize_eq, Text.byteSize_append]⟩
  · rcases Text.countWithin_cases (o - Text.byteSize (ahead.flatMap Line.chars)) line.chars
      with hall | ⟨c, cs, hdrop, hbig⟩
    · -- the whole line is taken, so it is the last one and ends the text
      have hwhole : LineIndex.taken o ahead line = line.chars := by
        rw [LineIndex.taken, hall, List.take_length]
      rw [hwhole, List.drop_length, List.nil_append] at hrest
      rw [hwhole] at hlt hfits hsize
      rcases hon.lt_next with rfl | hnext
      · rw [← hrest, List.flatMap_nil, Text.byteSize] at hsize
        omega
      · rw [Line.size] at hnext
        omega
    · -- only a part of the character that is left is ahead of the offset
      rw [hlength, hdrop, List.cons_append] at hrest
      rw [htext, ← hrest] at hboundary
      refine Text.not_isBoundary_within ?_ ?_ hboundary
      · rwa [Text.byteSize_append]
      · rw [Text.byteSize_append, LineIndex.taken]
        omega

/-- **The search finds the position** of every offset, and no step of it goes
wrong. -/
theorem position_eq (text : String) (o : Nat) :
    position text o = .ok ((LineIndex.ofText text).position o) := by
  obtain ⟨ahead, line, behind, hlines, hon⟩ := LineIndex.exists_isOn o (Line.scan_ne_nil text)
  have hfits := LineIndex.byteSize_taken_le o ahead line
  have hstart := hon.start_le
  -- the end of what is taken is on the same line, so the search finds that line
  have hstop : LineIndex.IsOn (Text.byteSize (ahead.flatMap Line.chars) +
      Text.byteSize (LineIndex.taken o ahead line)) ahead line behind :=
    ⟨Nat.le_add_right _ _, hon.lt_next.imp_right fun hnext => by omega⟩
  have hline := LineIndex.length_takeWhile_startsFrom 0 hstop
  have hget := LineIndex.startsFrom_getElem? 0 hlines
  have hslice := Text.slice?_ofList (ahead.flatMap Line.chars) (LineIndex.taken o ahead line)
    (line.chars.drop (LineIndex.taken o ahead line).length ++ behind.flatMap Line.chars)
  rw [Nat.zero_add, ← hlines] at hline
  rw [Nat.zero_add] at hget
  rw [← LineIndex.eq_around_taken hlines] at hslice
  rw [position, floor_of_isOn hlines hon]
  simp only [LineIndex.starts, LineIndex.ofText, hline, Nat.add_sub_cancel, hget, slice, hslice,
    bind, Except.bind]
  rw [← LineIndex.ofText, LineIndex.position_of_isOn hlines hon, String.length_ofList]

end Guarded

/-! ### The map -/

namespace LineIndex

/-- The numbers of a position are no greater than the text is long. -/
theorem position_le (text : String) (o : Nat) :
    ((ofText text).position o).line ≤ text.utf8ByteSize ∧
      ((ofText text).position o).column ≤ text.utf8ByteSize := by
  obtain ⟨ahead, line, behind, hlines, hon⟩ := exists_isOn o (Line.scan_ne_nil text)
  have htext := eq_around_taken hlines o
  rw [position_of_isOn hlines hon]
  constructor
  · have hlength := Line.length_scan_le text
    rw [hlines, List.length_append, List.length_cons] at hlength
    exact Nat.le_of_add_right_le (Nat.le_of_succ_le_succ hlength)
  · have hbytes := ColumnUnit.chars.measure_le_byteSize (taken o ahead line)
    rw [ColumnUnit.measure_chars] at hbytes
    conv_rhs => rw [htext, ← Text.byteSize_eq, Text.byteSize_append, Text.byteSize_append]
    exact hbytes.trans ((Nat.le_add_left _ _).trans (Nat.le_add_right _ _))

/-- **The line index maps a text to its lines and back.** -/
structure Maps (text : String) : Prop where
  /-- the starts are what a sweep over the bytes finds -/
  swept : (ofText text).starts = Sweep.starts (Utf8.encode text)
  first : (ofText text).starts.head? = some 0
  increasing : (ofText text).starts.Pairwise (· < ·)
  /-- a line ends where the next one starts, ahead of its break -/
  stripped : ∀ n, Guarded.lineSpan? text n = .ok ((ofText text).lineSpan? n)
  contents : ∀ n < (ofText text).starts.length, ∃ content, contentAt? text n = some content ∧
    ∀ c ∈ content.toList, c ≠ '\r' ∧ c ≠ '\n'
  endings : ∀ n, n + 1 < (ofText text).starts.length →
    ∃ ending ∈ ["\n", "\r\n", "\r"], endingAt? text n = some ending
  lastEnding : endingAt? text ((ofText text).starts.length - 1) = some ""
  joined : String.join ((List.range (ofText text).starts.length).map fun n =>
    (contentAt? text n).getD "" ++ (endingAt? text n).getD "") = text
  /-- a position is found by a search among the starts -/
  searched : ∀ o, Guarded.position text o = .ok ((ofText text).position o)
  offset_position : ∀ o, Text.isBoundary text o → ¬ Text.IsInsideBreak text o →
    (ofText text).offset? ((ofText text).position o) .chars = some o
  position_offset : ∀ n content, contentAt? text n = some content →
    ∀ column ≤ content.length, ∃ o, (ofText text).offset? ⟨n, column⟩ .chars = some o ∧
      (ofText text).position o = ⟨n, column⟩
  monotone : ∀ o o', o ≤ o' →
    (((ofText text).position o).order ((ofText text).position o')).isLE
  /-- the numbers of a position are numbers of 32 bits -/
  fits : ∀ o, ((ofText text).position o).line < 2 ^ 32 ∧
    ((ofText text).position o).column < 2 ^ 32

/-- **The line index is a faithful map**, if the numbers of the text fit 32
bits: lines start one after the other and make up the text; offsets and
positions lead to each other, except inside of a `\r\n`; and positions are in
the order of their offsets. -/
theorem maps_ofText (text : String) (hsize : text.utf8ByteSize < 2 ^ 32) : Maps text where
  swept := (Sweep.starts_encode text).symm
  first := by
    rw [← Sweep.starts_encode]
    rfl
  increasing := pairwise_starts text
  stripped := Guarded.lineSpan?_eq text
  contents := by
    intro n hn
    rw [length_starts] at hn
    obtain ⟨ahead, line, behind, hlines, rfl, hfree, -⟩ := exists_line hn
    refine ⟨String.ofList line.content, ?_, by rwa [String.toList_ofList]⟩
    rw [(line_eq text ahead.length).1, hlines]
    simp
  endings := by
    intro n hn
    obtain ⟨ended, begun, hscan, hended, -⟩ :=
      Line.exists_ended (Line.divides_iff.2 (Eq.refl (Line.scan text)))
    rw [length_starts, hscan, List.length_append, List.length_singleton] at hn
    have hlt : n < ended.length := Nat.lt_of_succ_lt_succ hn
    obtain ⟨ending, hending⟩ := Option.isSome_iff_exists.1 (hended _ (List.getElem_mem hlt))
    rw [(line_eq text n).2, hscan, List.getElem?_append_left hlt, List.getElem?_eq_getElem hlt]
    refine ⟨String.ofList ending.chars, by cases ending <;> decide, ?_⟩
    rw [Option.map_some, hending, Option.map_some, Option.getD_some]
  lastEnding := by
    obtain ⟨ended, begun, hscan, -, -⟩ :=
      Line.exists_ended (Line.divides_iff.2 (Eq.refl (Line.scan text)))
    rw [(line_eq text _).2, length_starts, hscan]
    simp
  joined := join_lines text
  searched := Guarded.position_eq text
  offset_position := fun o ho hinside => offset?_position ho hinside
  position_offset := by
    intro n content hcontent column hcolumn
    rw [(line_eq text n).1, Option.map_eq_some_iff] at hcontent
    obtain ⟨line, hline, rfl⟩ := hcontent
    obtain ⟨hlt, -⟩ := List.getElem?_eq_some_iff.1 hline
    obtain ⟨ahead, line', behind, hlines, rfl, -, -⟩ := exists_line hlt
    have hsame : line' = line := by simpa [hlines] using hline
    rw [String.length_ofList, ← hsame] at hcolumn
    exact exists_offset?_eq hlines hcolumn
  monotone := fun o o' h => positionFrom_mono 0 h (Line.scan text)
  fits := by
    intro o
    obtain ⟨hline, hcolumn⟩ := position_le text o
    exact ⟨hline.trans_lt hsize, hcolumn.trans_lt hsize⟩

/-- A `\r` ahead of a `\r\n` ends a line of its own. -/
theorem maps_mixedBreaks : "a\r\r\né\n".utf8ByteSize < 2 ^ 32 ∧
    (ofText "a\r\r\né\n").starts = [0, 2, 4, 7] ∧
    (List.range 4).map (contentAt? "a\r\r\né\n") = [some "a", some "", some "é", some ""] ∧
    Text.IsInsideBreak "a\r\r\né\n" 3 ∧
    Maps "a\r\r\né\n" := by
  have hsize : "a\r\r\né\n".utf8ByteSize < 2 ^ 32 := by decide
  exact ⟨hsize, by decide, by cbv, by decide, maps_ofText _ hsize⟩

end LineIndex

end Remedy
