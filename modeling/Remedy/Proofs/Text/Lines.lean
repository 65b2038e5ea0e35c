import Remedy.Proofs.Text.Cut
import Remedy.Proofs.Text.Scan
import Remedy.Text.LineIndex
/-!
# Lines are slices

What the line index reads of a text lies between characters: the content
of a line is a slice of the text (`slice?_lineSpan?`), and the column of a
position is the length of the slice from the start of its line
(`exists_slice_position`).
-/

namespace Remedy

namespace Text

variable {room : Nat} {cs ds : List Char}

theorem byteSize_eq (cs : List Char) : byteSize cs = (String.ofList cs).utf8ByteSize := by
  induction cs with
  | nil => rfl
  | cons c cs ih =>
    have hcons : String.ofList (c :: cs) = String.singleton c ++ String.ofList cs := by
      apply String.toList_inj.1
      simp
    rw [byteSize, ih, hcons, String.utf8ByteSize_append, String.utf8ByteSize_singleton]

theorem byteSize_append (cs ds : List Char) : byteSize (cs ++ ds) = byteSize cs + byteSize ds := by
  rw [byteSize_eq, String.ofList_append, String.utf8ByteSize_append, ← byteSize_eq, ← byteSize_eq]

theorem byteSize_pos {cs : List Char} (h : cs ≠ []) : 0 < byteSize cs := by
  obtain ⟨c, cs, rfl⟩ := List.exists_cons_of_ne_nil h
  exact Nat.lt_of_lt_of_le c.utf8Size_pos (Nat.le_add_right _ _)

/-- What is left of a list of characters takes up no more bytes, -/
theorem byteSize_le_of_sublist {cs ds : List Char} (h : cs.Sublist ds) :
    byteSize cs ≤ byteSize ds := by
  induction h with
  | slnil => exact Nat.le_refl 0
  | cons d _ ih => exact Nat.le_trans ih (Nat.le_add_left _ _)
  | cons_cons d _ ih => exact Nat.add_le_add_left ih _

/-- and less if something is missing. -/
theorem byteSize_lt_of_sublist {cs ds : List Char} (h : cs.Sublist ds) (hne : cs ≠ ds) :
    byteSize cs < byteSize ds := by
  induction h with
  | slnil => exact absurd rfl hne
  | cons d hsub _ =>
    exact Nat.lt_of_le_of_lt (byteSize_le_of_sublist hsub)
      (Nat.lt_add_of_pos_left d.utf8Size_pos)
  | cons_cons d _ ih => exact Nat.add_lt_add_left (ih fun heq => hne (heq ▸ rfl)) _

/-- Characters between others are a slice of them all. -/
theorem slice?_ofList (before middle after : List Char) :
    slice? (String.ofList (before ++ middle ++ after))
      ⟨byteSize before, byteSize before + byteSize middle⟩ = some (String.ofList middle) := by
  have h := slice?_append (String.ofList before) (String.ofList middle) (String.ofList after)
  rw [← String.ofList_append, ← String.ofList_append, ← byteSize_eq, ← byteSize_eq] at h
  exact h

theorem countWithin_le_length (room : Nat) (cs : List Char) : countWithin room cs ≤ cs.length := by
  induction cs generalizing room with
  | nil => exact Nat.le_refl 0
  | cons c cs ih =>
    rw [countWithin]
    split
    · exact Nat.succ_le_succ (ih (room - c.utf8Size))
    · exact Nat.zero_le _

/-- The characters that are counted take up no more than the room. -/
theorem byteSize_take_countWithin (room : Nat) (cs : List Char) :
    byteSize (cs.take (countWithin room cs)) ≤ room := by
  induction cs generalizing room with
  | nil => exact Nat.zero_le room
  | cons c cs ih =>
    rw [countWithin]
    split
    case isTrue hfits =>
      have hrest := ih (room - c.utf8Size)
      rw [List.take_succ_cons, byteSize]
      omega
    case isFalse => exact Nat.zero_le room

end Text

namespace LineIndex

variable {lines ahead behind : List Line} {line : Line} {n o start b : Nat} {text : String}
variable {span : Span}

/-- A line starts behind the lines ahead of it. -/
theorem exists_ahead (h : ((startsFrom b lines).zip lines)[n]? = some (start, line)) :
    ∃ ahead behind, lines = ahead ++ line :: behind ∧
      start = b + Text.byteSize (ahead.flatMap Line.chars) := by
  induction lines generalizing b n with
  | nil => simp [startsFrom] at h
  | cons first lines ih =>
    rw [startsFrom, List.zip_cons_cons] at h
    cases n with
    | zero =>
      rw [List.getElem?_cons_zero, Option.some.injEq, Prod.mk.injEq] at h
      obtain ⟨rfl, rfl⟩ := h
      exact ⟨[], lines, rfl, rfl⟩
    | succ n =>
      rw [List.getElem?_cons_succ] at h
      obtain ⟨ahead, behind, hlines, hstart⟩ := ih h
      refine ⟨first :: ahead, behind, by rw [hlines, List.cons_append], ?_⟩
      rw [hstart, List.flatMap_cons, Text.byteSize_append, Line.size, Nat.add_assoc]

/-- The start of a line that follows others, and its characters. -/
theorem exists_chars (h : (ofText text).line? n = some (start, line)) :
    ∃ before after, text = String.ofList (before ++ line.chars ++ after) ∧
      start = Text.byteSize before := by
  obtain ⟨ahead, behind, hlines, hstart⟩ := exists_ahead h
  have htext := Line.flatMap_chars_scan text
  have hscan : Line.scan text = ahead ++ line :: behind := hlines
  refine ⟨ahead.flatMap Line.chars, behind.flatMap Line.chars, ?_, by rw [hstart, Nat.zero_add]⟩
  apply String.toList_inj.1
  rw [← htext, hscan, String.toList_ofList, List.flatMap_append, List.flatMap_cons,
    List.append_assoc]

/-- **The content of a line is a slice.** -/
theorem slice?_lineSpan? (h : (ofText text).lineSpan? n = some span) :
    ∃ line, Text.slice? text span = some line := by
  rw [lineSpan?, Option.map_eq_some_iff] at h
  obtain ⟨⟨start, line⟩, hline, rfl⟩ := h
  obtain ⟨before, after, htext, hstart⟩ := exists_chars hline
  refine ⟨String.ofList line.content, ?_⟩
  have hslice := Text.slice?_ofList before line.content
    ((line.ending.map LineBreak.chars).getD [] ++ after)
  rw [htext, hstart, Line.chars, List.append_assoc, List.append_assoc, ← List.append_assoc before]
  exact hslice

/-! ### Lines of offsets -/

/-- **An offset is on a line**: it is not ahead of its start, and ahead of the
next line unless there is none. -/
structure IsOn (o : Nat) (ahead : List Line) (line : Line) (behind : List Line) : Prop where
  start_le : Text.byteSize (ahead.flatMap Line.chars) ≤ o
  lt_next : behind = [] ∨ o < Text.byteSize (ahead.flatMap Line.chars) + line.size

/-- The bytes of lines, those of the first one apart. -/
theorem byteSize_flatMap_cons (first : Line) (lines : List Line) :
    Text.byteSize ((first :: lines).flatMap Line.chars) =
      first.size + Text.byteSize (lines.flatMap Line.chars) := by
  rw [List.flatMap_cons, Text.byteSize_append, Line.size]

theorem IsOn.cons {first : Line} (hle : first.size ≤ o)
    (h : IsOn (o - first.size) ahead line behind) : IsOn o (first :: ahead) line behind where
  start_le := by
    have hstart := h.start_le
    rw [byteSize_flatMap_cons]
    omega
  lt_next := by
    refine h.lt_next.imp_right fun hnext => ?_
    rw [byteSize_flatMap_cons]
    omega

/-- Every offset is on a line. -/
theorem exists_isOn (o : Nat) (hne : lines ≠ []) :
    ∃ ahead line behind, lines = ahead ++ line :: behind ∧ IsOn o ahead line behind := by
  induction lines generalizing o with
  | nil => exact absurd rfl hne
  | cons first lines ih =>
    cases lines with
    | nil => exact ⟨[], first, [], rfl, Nat.zero_le o, .inl rfl⟩
    | cons next lines =>
      rcases Nat.lt_or_ge o first.size with hlt | hge
      · exact ⟨[], first, next :: lines, rfl, Nat.zero_le o,
          .inr (Nat.lt_of_lt_of_le hlt (Nat.le_add_left _ _))⟩
      · obtain ⟨ahead, line, behind, hlines, hon⟩ :=
          ih (o - first.size) (List.cons_ne_nil next lines)
        exact ⟨first :: ahead, line, behind, by rw [hlines, List.cons_append], hon.cons hge⟩

/-- The characters of a line from its start up to an offset. -/
def taken (o : Nat) (ahead : List Line) (line : Line) : List Char :=
  line.chars.take (Text.countWithin (o - Text.byteSize (ahead.flatMap Line.chars)) line.chars)

theorem length_taken (o : Nat) (ahead : List Line) (line : Line) : (taken o ahead line).length =
    Text.countWithin (o - Text.byteSize (ahead.flatMap Line.chars)) line.chars :=
  List.length_take_of_le (Text.countWithin_le_length _ _)

theorem byteSize_taken_le (o : Nat) (ahead : List Line) (line : Line) :
    Text.byteSize (taken o ahead line) ≤ o - Text.byteSize (ahead.flatMap Line.chars) :=
  Text.byteSize_take_countWithin _ _

/-- **The position of an offset on a line**: the column counts what is taken
of the line. -/
theorem positionFrom_of_isOn (m : Nat) (h : IsOn o ahead line behind) :
    positionFrom m o (ahead ++ line :: behind) =
      ⟨m + ahead.length, (taken o ahead line).length⟩ := by
  rw [length_taken]
  obtain ⟨hstart, hnext⟩ := h
  induction ahead generalizing m o with
  | nil =>
    cases behind with
    | nil => rfl
    | cons next behind =>
      have hlt : o < line.size := by simpa [Text.byteSize] using hnext
      rw [List.nil_append, positionFrom, if_pos hlt]
      rfl
  | cons first ahead ih =>
    -- the first line is passed, as the offset is not within it
    obtain ⟨next, rest, hrest⟩ := List.exists_cons_of_ne_nil
      (List.append_ne_nil_of_right_ne_nil ahead (List.cons_ne_nil line behind))
    rw [byteSize_flatMap_cons] at hstart hnext ⊢
    have hlater := @ih (o - first.size) (m + 1) (by omega) (hnext.imp_right fun hlt => by omega)
    rw [hrest] at hlater
    rw [List.cons_append, hrest, positionFrom, if_neg (by omega), hlater, List.length_cons,
      Nat.sub_sub, Nat.add_assoc, Nat.add_comm 1]

theorem position_of_isOn (hlines : Line.scan text = ahead ++ line :: behind)
    (h : IsOn o ahead line behind) :
    (ofText text).position o = ⟨ahead.length, (taken o ahead line).length⟩ := by
  rw [position, ofText, hlines, positionFrom_of_isOn 0 h, Nat.zero_add]

/-- What is taken of a line is a part of the text. -/
theorem eq_around_taken (hlines : Line.scan text = ahead ++ line :: behind) (o : Nat) :
    text = String.ofList (ahead.flatMap Line.chars ++ taken o ahead line ++
      (line.chars.drop (taken o ahead line).length ++ behind.flatMap Line.chars)) := by
  apply String.toList_inj.1
  rw [length_taken, taken, String.toList_ofList, List.append_assoc,
    ← List.append_assoc (List.take _ _), List.take_append_drop, ← Line.flatMap_chars_scan text,
    hlines, List.flatMap_append, List.flatMap_cons]

/-- The line behind others, and where it starts. -/
theorem getElem?_zip_startsFrom (b : Nat) (ahead : List Line) (line : Line) (behind : List Line) :
    ((startsFrom b (ahead ++ line :: behind)).zip (ahead ++ line :: behind))[ahead.length]? =
      some (b + Text.byteSize (ahead.flatMap Line.chars), line) := by
  induction ahead generalizing b with
  | nil => rfl
  | cons first ahead ih =>
    rw [List.cons_append, startsFrom, List.zip_cons_cons, List.length_cons,
      List.getElem?_cons_succ, ih, List.flatMap_cons, Text.byteSize_append, Line.size,
      Nat.add_assoc]

theorem line?_of_scan (hlines : Line.scan text = ahead ++ line :: behind) :
    (ofText text).line? ahead.length =
      some (Text.byteSize (ahead.flatMap Line.chars), line) := by
  rw [line?, starts, ofText, hlines, getElem?_zip_startsFrom, Nat.zero_add]

theorem lineSpan?_of_scan (hlines : Line.scan text = ahead ++ line :: behind) :
    (ofText text).lineSpan? ahead.length = some ⟨Text.byteSize (ahead.flatMap Line.chars),
      Text.byteSize (ahead.flatMap Line.chars) + Text.byteSize line.content⟩ := by
  rw [lineSpan?, line?_of_scan hlines, Option.map_some]

/-- **A column is the length of a slice**: from the start of the line up to
the offset, or to the character that the offset is inside of. -/
theorem exists_slice_position (text : String) (offset : Nat) :
    ∃ start line piece,
      (ofText text).line? ((ofText text).position offset).line = some (start, line) ∧
      Text.slice? text ⟨start, start + piece.utf8ByteSize⟩ = some piece ∧
      piece.length = ((ofText text).position offset).column ∧
      start + piece.utf8ByteSize ≤ offset := by
  obtain ⟨ahead, line, behind, hlines, hon⟩ := exists_isOn offset (Line.scan_ne_nil text)
  have hstart := hon.start_le
  have hfits := byteSize_taken_le offset ahead line
  have hslice := Text.slice?_ofList (ahead.flatMap Line.chars) (taken offset ahead line)
    (line.chars.drop (taken offset ahead line).length ++ behind.flatMap Line.chars)
  rw [← eq_around_taken hlines, Text.byteSize_eq (taken offset ahead line)] at hslice
  rw [Text.byteSize_eq] at hfits
  rw [position_of_isOn hlines hon]
  exact ⟨_, line, _, line?_of_scan hlines, hslice, String.length_ofList, by omega⟩

end LineIndex

end Remedy
