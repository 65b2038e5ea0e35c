import Mathlib
import Remedy.Proofs.Text.Place
/-!
# Positions of offsets

The line index and the places of a text tell the same: the position of an
offset is the place behind the text ahead of it, unless the offset is inside
of a `\r\n` (`position_append`). So offsets and positions lead to each other
(`offset?_position`, `exists_offset?_eq`), and positions are in the order of
their offsets (`positionFrom_mono`).
-/

namespace Remedy

namespace Line

/-- **All lines but the last one have a break**, and the last one has
none. -/
theorem exists_ended {cs : List Char} {lines : List Line} (h : Divides cs lines) :
    ∃ ended begun, lines = ended ++ [⟨begun, none⟩] ∧ (∀ line ∈ ended, line.ending.isSome) ∧
      ∀ c ∈ begun, c ≠ '\r' ∧ c ≠ '\n' := by
  have hcons : ∀ {content : List Char} {ending : LineBreak} {lines : List Line},
      (∃ ended begun, lines = ended ++ [⟨begun, none⟩] ∧ (∀ line ∈ ended, line.ending.isSome) ∧
        ∀ c ∈ begun, c ≠ '\r' ∧ c ≠ '\n') →
      ∃ ended begun, ⟨content, some ending⟩ :: lines = ended ++ [⟨begun, none⟩] ∧
        (∀ line ∈ ended, line.ending.isSome) ∧ ∀ c ∈ begun, c ≠ '\r' ∧ c ≠ '\n' := by
    rintro content ending _ ⟨ended, begun, rfl, hended, hfree⟩
    exact ⟨⟨content, some ending⟩ :: ended, begun, rfl, List.forall_mem_cons.2 ⟨rfl, hended⟩, hfree⟩
  induction h with
  | @last content hfree => exact ⟨[], content, rfl, nofun, hfree⟩
  | lf _ _ ih => exact hcons ih
  | crlf _ _ ih => exact hcons ih
  | cr _ _ _ ih => exact hcons ih

/-- A line with a break ends in a character of the break. -/
theorem getLast?_chars {line : Line} (h : line.ending.isSome) :
    line.chars.getLast? = some '\n' ∨ line.chars.getLast? = some '\r' := by
  obtain ⟨content, ending⟩ := line
  cases ending with
  | none => cases h
  | some ending => cases ending <;> simp [chars, LineBreak.chars]

/-- So it takes up some bytes. -/
theorem size_pos {line : Line} (h : line.ending.isSome) : 0 < line.size := by
  rw [size]
  cases hchars : line.chars with
  | nil =>
    have hlast := getLast?_chars h
    rw [hchars] at hlast
    simp at hlast
  | cons c cs => exact Nat.lt_of_lt_of_le c.utf8Size_pos (Nat.le_add_right _ _)

end Line

namespace Text

/-- The bytes of a text are those of its characters. -/
theorem utf8ByteSize_eq (text : String) : text.utf8ByteSize = byteSize text.toList := by
  rw [byteSize_eq, String.ofList_toList]

theorem countWithin_zero (cs : List Char) : countWithin 0 cs = 0 := by
  cases cs with
  | nil => rfl
  | cons c cs =>
    have hsize := c.utf8Size_pos
    rw [countWithin, if_neg (by omega)]

theorem countWithin_mono {room room' : Nat} (h : room ≤ room') (cs : List Char) :
    countWithin room cs ≤ countWithin room' cs := by
  induction cs generalizing room room' with
  | nil => exact Nat.le_refl 0
  | cons c cs ih =>
    rw [countWithin, countWithin]
    split
    case isTrue hfits =>
      rw [if_pos (hfits.trans h)]
      exact Nat.succ_le_succ (ih (Nat.sub_le_sub_right h c.utf8Size))
    case isFalse => exact Nat.zero_le _

/-- The characters that fill the room are those that are counted. -/
theorem countWithin_byteSize (cs ds : List Char) :
    countWithin (byteSize cs) (cs ++ ds) = cs.length := by
  induction cs with
  | nil => exact countWithin_zero ds
  | cons c cs ih =>
    rw [List.cons_append, byteSize, countWithin, if_pos (Nat.le_add_right _ _),
      Nat.add_sub_cancel_left, ih, List.length_cons]

/-- What is counted fills the room, unless a character is left that is too
big for the rest of it. -/
theorem countWithin_cases (room : Nat) (cs : List Char) :
    countWithin room cs = cs.length ∨ ∃ c rest, cs.drop (countWithin room cs) = c :: rest ∧
      room < byteSize (cs.take (countWithin room cs)) + c.utf8Size := by
  induction cs generalizing room with
  | nil => exact .inl rfl
  | cons c cs ih =>
    rw [countWithin]
    split
    case isTrue hfits =>
      refine (ih (room - c.utf8Size)).imp (fun hall => ?_) ?_
      · rw [hall, List.length_cons]
      · rintro ⟨d, rest, hdrop, hroom⟩
        refine ⟨d, rest, by rw [List.drop_succ_cons, hdrop], ?_⟩
        rw [List.take_succ_cons, byteSize]
        omega
    case isFalse hbig => exact .inr ⟨c, cs, rfl, by simpa [byteSize] using hbig⟩

end Text

namespace Position

variable {p q : Position}

/-- The order of positions, told by their numbers. -/
theorem isLE_order_iff : (p.order q).isLE ↔
    p.line < q.line ∨ p.line = q.line ∧ p.column ≤ q.column := by
  rw [order, Ordering.isLE_iff_ne_gt, Ordering.then_eq_gt, Nat.compare_eq_gt,
    Nat.compare_eq_eq, Nat.compare_eq_gt]
  omega

end Position

namespace LineIndex

variable {lines ahead behind : List Line} {line : Line} {text : String} {o o' : Nat}

theorem le_line_positionFrom (m o : Nat) (lines : List Line) :
    m ≤ (positionFrom m o lines).line := by
  induction m, o, lines using positionFrom.induct with
  | case1 | case2 => exact Nat.le_refl _
  | case3 m o line next lines hlt =>
    rw [positionFrom, if_pos hlt]
  | case4 m o line next lines hge ih =>
    rw [positionFrom, if_neg hge]
    exact (Nat.le_succ m).trans ih

/-- **Positions are in the order of their offsets.** -/
theorem positionFrom_mono (m : Nat) (h : o ≤ o') (lines : List Line) :
    ((positionFrom m o lines).order (positionFrom m o' lines)).isLE := by
  rw [Position.isLE_order_iff]
  induction m, o, lines using positionFrom.induct generalizing o' with
  | case1 m o => exact .inr ⟨rfl, Nat.le_refl 0⟩
  | case2 m o line => exact .inr ⟨rfl, Text.countWithin_mono h line.chars⟩
  | case3 m o line next lines hlt =>
    rw [positionFrom, positionFrom, if_pos hlt]
    split
    · exact .inr ⟨rfl, Text.countWithin_mono h line.chars⟩
    · exact .inl (le_line_positionFrom (m + 1) _ _)
  | case4 m o line next lines hge ih =>
    rw [positionFrom, positionFrom, if_neg hge, if_neg (by omega)]
    exact ih (Nat.sub_le_sub_right h line.size)

/-- The start of a line is a position of its own, if the line takes up some
bytes or is the last one. -/
theorem position_start (hlines : Line.scan text = ahead ++ line :: behind)
    (hline : behind = [] ∨ 0 < line.size) :
    (ofText text).position (Text.byteSize (ahead.flatMap Line.chars)) = ⟨ahead.length, 0⟩ := by
  rw [position_of_isOn hlines ⟨Nat.le_refl _, hline.imp_right Nat.lt_add_of_pos_right⟩,
    length_taken, Nat.sub_self, Text.countWithin_zero]

/-! ### Contents and their ends -/

/-- Each line that others follow has a break. -/
theorem isSome_ending (hlines : Line.scan text = ahead ++ behind) (hne : behind ≠ []) :
    ∀ line ∈ ahead, line.ending.isSome := by
  obtain ⟨ended, begun, hscan, hended, -⟩ :=
    Line.exists_ended (Line.divides_iff.2 (Eq.refl (Line.scan text)))
  have hdrop : ended = ahead ++ behind.dropLast := by
    rw [← List.dropLast_append_of_ne_nil hne, ← hlines, hscan, List.dropLast_concat]
  intro line hline
  exact hended line (hdrop ▸ List.mem_append_left _ hline)

/-- **The position of a place in the content of a line.** -/
theorem position_content {taken rest : List Char}
    (hlines : Line.scan text = ahead ++ line :: behind) (hcontent : line.content = taken ++ rest) :
    (ofText text).position (Text.byteSize (ahead.flatMap Line.chars) + Text.byteSize taken) =
      ⟨ahead.length, taken.length⟩ := by
  have hchars : line.chars = taken ++ (rest ++ (line.ending.map LineBreak.chars).getD []) := by
    rw [Line.chars, hcontent, List.append_assoc]
  have hon : IsOn (Text.byteSize (ahead.flatMap Line.chars) + Text.byteSize taken)
      ahead line behind := by
    refine ⟨Nat.le_add_right _ _, ?_⟩
    -- a line that others follow has a break, and the place is ahead of it
    by_cases hlast : behind = []
    · exact .inl hlast
    · have hall : Line.scan text = (ahead ++ [line]) ++ behind := by
        rw [hlines, List.append_assoc, List.singleton_append]
      have hended := isSome_ending hall hlast line (List.mem_append_right _ List.mem_cons_self)
      obtain ⟨ending, hending⟩ := Option.isSome_iff_exists.1 hended
      have hbreak : 0 < Text.byteSize ending.chars := by cases ending <;> decide
      rw [Line.size, hchars, hending, Option.map_some, Option.getD_some, Text.byteSize_append,
        Text.byteSize_append]
      exact .inr (by omega)
  rw [position_of_isOn hlines hon, length_taken, Nat.add_sub_cancel_left, hchars,
    Text.countWithin_byteSize]

/-- **The position between two texts** is the place behind the first one,
unless they meet inside of a break. -/
theorem position_append {before after : String}
    (h : ¬ Line.SplitsBreak before.toList after.toList) :
    (ofText (before ++ after)).position before.utf8ByteSize =
      ColumnUnit.chars.placeBehind before := by
  obtain ⟨lines, begun, more, ending, behind, hbefore, hscan, hchars⟩ :=
    ColumnUnit.exists_scan_append h
  have hsize : before.utf8ByteSize =
      Text.byteSize (lines.flatMap Line.chars) + Text.byteSize begun := by
    rw [Text.utf8ByteSize_eq, hchars, Text.byteSize_append]
  rw [hsize, position_content hscan rfl, ColumnUnit.placeBehind_eq hbefore,
    ColumnUnit.measure_chars]

/-- **The offset of a position is found again**, unless it is inside of a
break. -/
theorem offset?_position (ho : Text.isBoundary text o) (hinside : ¬ Text.IsInsideBreak text o) :
    (ofText text).offset? ((ofText text).position o) .chars = some o := by
  obtain ⟨before, after, rfl, rfl⟩ := Text.isBoundary_iff.1 ho
  have hsplits := fun h => hinside (Text.isInsideBreak_of_splitsBreak h)
  rw [position_append hsplits, ColumnUnit.offset?_placeBehind _ hsplits]

/-- **The position of an offset is found again**, if its column is on the
line. -/
theorem exists_offset?_eq {column : Nat} (hlines : Line.scan text = ahead ++ line :: behind)
    (hcolumn : column ≤ line.content.length) :
    ∃ o, (ofText text).offset? ⟨ahead.length, column⟩ .chars = some o ∧
      (ofText text).position o = ⟨ahead.length, column⟩ := by
  have hlength : (line.content.take column).length = column := List.length_take_of_le hcolumn
  have hcontent : line.content = line.content.take column ++ line.content.drop column :=
    (List.take_append_drop column line.content).symm
  have hbytes := ColumnUnit.chars.byteOffset_measure (line.content.take column)
    (line.content.drop column)
  rw [← hcontent, ColumnUnit.measure_chars, hlength] at hbytes
  refine ⟨_, offset?_of_eq hlines column .chars, ?_⟩
  rw [hbytes, position_content hlines hcontent, hlength]

end LineIndex

end Remedy
