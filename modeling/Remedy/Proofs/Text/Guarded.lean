import Mathlib
import Remedy.Proofs.Text.Place
/-!
# Guarded look-ups

A look-up by line and column cuts the text and adds up offsets. Here it is
done step by step, from the starts of the lines alone, so that a step can
go wrong: a cut may miss the places between characters, a difference may
fall below zero, and a sum may leave the text or its lines. No step ever does
(`Guarded.offset?_eq`), whatever the line and the column are, and the offset
that is found is between characters (`LineIndex.isBoundary_of_offset?`).
-/

namespace Remedy

/-- What would stop a look-up. -/
inductive Halt where
  /-- a cut that runs backwards, leaves the text or divides a character -/
  | cut
  /-- a number that is out of range -/
  | range
deriving DecidableEq, Repr

namespace Guarded

/-- A sum, which may not exceed the room: the size of a text, or the number
of its lines. -/
def add (room a b : Nat) : Except Halt Nat :=
  if a + b ≤ room then .ok (a + b) else .error .range

/-- A difference, which may not fall below zero. -/
def sub (a b : Nat) : Except Halt Nat := if b ≤ a then .ok (a - b) else .error .range

/-- A cut, which must be between characters. -/
def slice (text : String) (span : Span) : Except Halt String :=
  match Text.slice? text span with
  | some piece => .ok piece
  | none => .error .cut

/-- The offset of a column, by one pass that counts bytes and units. -/
def byteOffset (room : Nat) (unit : ColumnUnit) (column offset units : Nat) :
    List Char → Except Halt Nat
  | [] => .ok offset
  | c :: cs =>
    if column ≤ units then .ok offset
    else do
      let offset ← add room offset c.utf8Size
      let units ← add room units (unit.width c)
      byteOffset room unit column offset units cs

/-- An end, moved ahead of a character that stands there. -/
def dropLast (text : String) (c : Char) (start stop : Nat) : Except Halt Nat :=
  if start < stop then do
    let before ← sub stop 1
    if Text.slice? text ⟨before, stop⟩ = some (String.singleton c) then .ok before else .ok stop
  else .ok stop

/-- The content of a line: it starts where the index says, and it ends where
the next line starts, ahead of the break. -/
def lineSpan? (text : String) (n : Nat) : Except Halt (Option Span) :=
  let starts := (LineIndex.ofText text).starts
  match starts[n]? with
  | none => .ok none
  | some start => do
    let next ← add starts.length n 1
    let stop ← dropLast text '\n' start (starts[next]?.getD text.utf8ByteSize)
    let stop ← dropLast text '\r' start stop
    .ok (some ⟨start, stop⟩)

/-- The offset of a position. -/
def offset? (text : String) (p : Position) (unit : ColumnUnit) : Except Halt (Option Nat) :=
  if p.line = (LineIndex.ofText text).starts.length then
    .ok (if p.column = 0 then some text.utf8ByteSize else none)
  else do
    match ← lineSpan? text p.line with
    | none => .ok none
    | some span =>
      let line ← slice text span
      let within ← byteOffset text.utf8ByteSize unit p.column 0 0 line.toList
      let offset ← add text.utf8ByteSize span.start within
      .ok (some offset)

end Guarded

/-! ### Lines and their starts -/

theorem Line.Divides.free {cs : List Char} {lines : List Line} (h : Line.Divides cs lines) :
    ∀ line ∈ lines, ∀ c ∈ line.content, c ≠ '\r' ∧ c ≠ '\n' := by
  induction h with
  | last hfree => simpa using hfree
  | lf hfree _ ih => exact List.forall_mem_cons.2 ⟨hfree, ih⟩
  | crlf hfree _ ih => exact List.forall_mem_cons.2 ⟨hfree, ih⟩
  | cr hfree _ _ ih => exact List.forall_mem_cons.2 ⟨hfree, ih⟩

namespace ColumnUnit

/-- A column is at the end of some first characters of its line. -/
theorem exists_byteOffset (unit : ColumnUnit) (cs : List Char) (column : Nat) :
    ∃ taken rest, cs = taken ++ rest ∧ unit.byteOffset cs column = Text.byteSize taken := by
  induction cs generalizing column with
  | nil => exact ⟨[], [], rfl, rfl⟩
  | cons c cs ih =>
    rw [byteOffset]
    split
    case isTrue => exact ⟨[], c :: cs, rfl, rfl⟩
    case isFalse =>
      obtain ⟨taken, rest, hcs, hoffset⟩ := ih (column - unit.width c)
      refine ⟨c :: taken, rest, ?_, ?_⟩
      · rw [hcs, List.cons_append]
      · rw [hoffset, Text.byteSize]

theorem byteOffset_le (unit : ColumnUnit) (cs : List Char) (column : Nat) :
    unit.byteOffset cs column ≤ Text.byteSize cs := by
  obtain ⟨taken, rest, hcs, hoffset⟩ := unit.exists_byteOffset cs column
  rw [hoffset, hcs, Text.byteSize_append]
  exact Nat.le_add_right _ _

end ColumnUnit

namespace LineIndex

variable {lines ahead behind : List Line} {line : Line} {text : String} {n b o : Nat}

@[simp] theorem length_startsFrom (b : Nat) (lines : List Line) :
    (startsFrom b lines).length = lines.length := by
  induction lines generalizing b with
  | nil => rfl
  | cons line lines ih => rw [startsFrom, List.length_cons, ih, List.length_cons]

theorem length_starts (text : String) : (ofText text).starts.length = (Line.scan text).length :=
  length_startsFrom 0 (Line.scan text)

theorem lineSpan?_eq_none (h : (Line.scan text).length ≤ n) :
    (ofText text).lineSpan? n = none := by
  have hline : (ofText text).line? n = none := by
    rw [line?, List.getElem?_eq_none_iff, List.length_zip, length_starts, ofText, Nat.min_self]
    exact h
  rw [lineSpan?, hline, Option.map_none]

/-- Where a line starts that follows others. -/
theorem startsFrom_getElem? (b : Nat) (h : lines = ahead ++ line :: behind) :
    (startsFrom b lines)[ahead.length]? = some (b + Text.byteSize (ahead.flatMap Line.chars)) := by
  have hzip := getElem?_zip_startsFrom b ahead line behind
  rw [← h] at hzip
  exact (List.getElem?_zip_eq_some.1 hzip).1

/-- A line and its break end where the next line starts, or the text ends. -/
theorem startsFrom_getElem?_succ (h : lines = ahead ++ line :: behind) :
    ((startsFrom 0 lines)[ahead.length + 1]?).getD (LineIndex.size ⟨lines⟩) =
      Text.byteSize (ahead.flatMap Line.chars) + line.size := by
  have hends : Text.byteSize ((ahead ++ [line]).flatMap Line.chars) =
      Text.byteSize (ahead.flatMap Line.chars) + line.size := by
    rw [List.flatMap_append, List.flatMap_singleton, Text.byteSize_append, Line.size]
  cases behind with
  | nil =>
    rw [List.getElem?_eq_none (by simp [h]), Option.getD_none, h, size_eq, hends]
  | cons next behind =>
    have hnext : lines = (ahead ++ [line]) ++ next :: behind := by
      rw [h, List.append_assoc, List.singleton_append]
    have hstart := startsFrom_getElem? 0 hnext
    rw [List.length_append, List.length_singleton, hends, Nat.zero_add] at hstart
    rw [hstart, Option.getD_some]

/-- The lines of a text take up all of it. -/
theorem size_ofText (text : String) : (ofText text).size = text.utf8ByteSize := by
  rw [ofText, size_eq, Line.flatMap_chars_scan, Text.byteSize_eq, String.ofList_toList]

/-- A line of a text, with what is ahead of it and behind it. -/
theorem exists_line (h : n < (Line.scan text).length) : ∃ ahead line behind,
    Line.scan text = ahead ++ line :: behind ∧ ahead.length = n ∧
    (∀ c ∈ line.content, c ≠ '\r' ∧ c ≠ '\n') ∧
    text.toList = ahead.flatMap Line.chars ++ line.chars ++ behind.flatMap Line.chars := by
  let lines := Line.scan text
  have hlines : Line.scan text = lines.take n ++ lines[n] :: lines.drop (n + 1) := by
    rw [← List.drop_eq_getElem_cons h, List.take_append_drop]
  have hfree := (Line.divides_iff.2 (rfl : Line.scan text = lines)).free
  refine ⟨lines.take n, lines[n], lines.drop (n + 1), hlines, ?_, ?_, ?_⟩
  · exact List.length_take_of_le (Nat.le_of_lt h)
  · exact hfree lines[n] (List.getElem_mem h)
  · conv_lhs => rw [← Line.flatMap_chars_scan text, hlines]
    rw [List.flatMap_append, List.flatMap_cons, List.append_assoc]

end LineIndex

/-! ### No step goes wrong -/

namespace Guarded

variable {room : Nat} {text : String} {unit : ColumnUnit}

/-- A text with a character of one byte at the end of its middle part. -/
theorem slice?_last_iff {before cs after : List Char} {c d : Char} (hc : c.utf8Size = 1) :
    Text.slice? (String.ofList (before ++ (cs ++ [d]) ++ after))
      ⟨Text.byteSize before + Text.byteSize (cs ++ [d]) - 1,
        Text.byteSize before + Text.byteSize (cs ++ [d])⟩ = some (String.singleton c) ↔ d = c := by
  have hd := d.utf8Size_pos
  have hsize : Text.byteSize (cs ++ [d]) = Text.byteSize cs + d.utf8Size := by
    rw [Text.byteSize_append, Text.byteSize, Text.byteSize, Nat.add_zero]
  constructor
  · intro h
    obtain ⟨first, last, htext, hspan⟩ := Text.slice?_eq_some_iff.1 h
    obtain ⟨hstart, -⟩ := Span.mk.inj hspan
    -- both cuts of the text are at the same place, so the same character is ahead of them
    have hcut : first ++ String.singleton c = String.ofList (before ++ (cs ++ [d])) := by
      have hboth : String.ofList (before ++ (cs ++ [d])) ++ String.ofList after =
          first ++ String.singleton c ++ last := by rw [← String.ofList_append, htext]
      have hle : (String.ofList (before ++ (cs ++ [d]))).utf8ByteSize ≤
          (first ++ String.singleton c).utf8ByteSize := by
        rw [← Text.byteSize_eq, Text.byteSize_append, String.utf8ByteSize_append,
          String.utf8ByteSize_singleton, hc]
        omega
      obtain ⟨middle, hmiddle, -⟩ := Text.exists_between hboth hle
      have hnil : middle = "" := by
        apply String.utf8ByteSize_eq_zero_iff.1
        have hlength := congrArg String.utf8ByteSize hmiddle
        rw [String.utf8ByteSize_append, String.utf8ByteSize_append, ← Text.byteSize_eq,
          Text.byteSize_append, String.utf8ByteSize_singleton, hc] at hlength
        omega
      rw [hmiddle, hnil, String.append_empty]
    have hlast := congrArg (fun s => s.toList.getLast?) hcut
    simpa [← List.append_assoc] using hlast.symm
  · rintro rfl
    have hslice := Text.slice?_ofList (before ++ cs) [d] after
    have hone : Text.byteSize [d] = 1 := by rw [Text.byteSize, Text.byteSize, hc]
    rw [Text.byteSize_append, hone, List.append_assoc before] at hslice
    have hstart : Text.byteSize before + Text.byteSize (cs ++ [d]) - 1 =
        Text.byteSize before + Text.byteSize cs := by omega
    rw [hstart, hsize, hc, ← Nat.add_assoc]
    exact hslice

/-- Characters without the last one, if it is a given one. -/
def withoutLast (c : Char) (cs : List Char) : List Char :=
  if cs.getLast? = some c then cs.dropLast else cs

theorem isPrefix_withoutLast (c : Char) (cs : List Char) : withoutLast c cs <+: cs := by
  rw [withoutLast]
  split
  · exact List.dropLast_prefix cs
  · exact List.prefix_refl cs

/-- What is left of a line without a `\n` and then a `\r` at its end. -/
theorem withoutLast_chars {line : Line} (hfree : ∀ c ∈ line.content, c ≠ '\r' ∧ c ≠ '\n') :
    withoutLast '\r' (withoutLast '\n' line.chars) = line.content := by
  have hlast : ∀ c, line.content.getLast? = some c → c ≠ '\r' ∧ c ≠ '\n' :=
    fun c hc => hfree c (List.mem_of_getLast? hc)
  have hcr : line.content.getLast? ≠ some '\r' := fun h => (hlast _ h).1 rfl
  have hlf : line.content.getLast? ≠ some '\n' := fun h => (hlast _ h).2 rfl
  obtain ⟨content, ending⟩ := line
  cases ending with
  | none => simp_all [withoutLast, Line.chars]
  | some ending => cases ending <;> simp_all [withoutLast, Line.chars, LineBreak.chars]

/-- An end moves ahead of the character if that stands there. -/
theorem dropLast_eq {before cs : List Char} {c : Char} (hc : c.utf8Size = 1)
    (h : before ++ cs <+: text.toList) :
    dropLast text c (Text.byteSize before) (Text.byteSize before + Text.byteSize cs) =
      .ok (Text.byteSize before + Text.byteSize (withoutLast c cs)) := by
  obtain ⟨after, htext⟩ := h
  have htext' : text = String.ofList (before ++ cs ++ after) := by
    rw [htext, String.ofList_toList]
  rcases cs.eq_nil_or_concat' with rfl | ⟨cs, d, rfl⟩
  · rw [dropLast, if_neg (by simp [Text.byteSize])]
    rfl
  · have hd := d.utf8Size_pos
    have hsize : Text.byteSize (cs ++ [d]) = Text.byteSize cs + d.utf8Size := by
      rw [Text.byteSize_append, Text.byteSize, Text.byteSize, Nat.add_zero]
    rw [dropLast, if_pos (by omega), sub, if_pos (by omega), withoutLast, List.getLast?_concat,
      List.dropLast_concat]
    simp only [bind, Except.bind, htext', slice?_last_iff hc, Option.some.injEq]
    split
    case isTrue heq =>
      subst heq
      rw [hsize, hc]
      congr 1
    case isFalse => rfl

/-- **The content of a line is found**: what is dropped is its break. -/
theorem lineSpan?_eq (text : String) (n : Nat) :
    lineSpan? text n = .ok ((LineIndex.ofText text).lineSpan? n) := by
  rcases Nat.lt_or_ge n (Line.scan text).length with hlt | hge
  · obtain ⟨ahead, line, behind, hlines, rfl, hfree, htext⟩ := LineIndex.exists_line hlt
    have hstart := LineIndex.startsFrom_getElem? 0 hlines
    have hstop := LineIndex.startsFrom_getElem?_succ hlines
    have hsize := LineIndex.size_ofText text
    rw [LineIndex.ofText] at hsize
    rw [hsize] at hstop
    rw [Nat.zero_add] at hstart
    have hprefix : ahead.flatMap Line.chars ++ line.chars <+: text.toList :=
      ⟨behind.flatMap Line.chars, htext.symm⟩
    have hlf := dropLast_eq (c := '\n') (by decide) hprefix
    have hcr := dropLast_eq (c := '\r') (by decide)
      (((List.prefix_append_right_inj _).2 (isPrefix_withoutLast '\n' line.chars)).trans hprefix)
    rw [withoutLast_chars hfree] at hcr
    have hnext : add (LineIndex.startsFrom 0 (Line.scan text)).length ahead.length 1 =
        .ok (ahead.length + 1) := by
      rw [LineIndex.length_startsFrom]
      exact if_pos hlt
    rw [lineSpan?, LineIndex.lineSpan?_of_scan hlines]
    simp only [LineIndex.starts, LineIndex.ofText, hstart, hnext, hstop, Line.size, hlf, hcr, bind,
      Except.bind]
  · have hnone : (LineIndex.ofText text).starts[n]? = none :=
      List.getElem?_eq_none (by rw [LineIndex.length_starts]; exact hge)
    rw [lineSpan?, hnone, LineIndex.lineSpan?_eq_none hge]

/-- **The pass over a line finds the column**, as long as there is room for
what is left of the line. -/
theorem byteOffset_eq {column offset units : Nat} {cs : List Char}
    (hbytes : offset + Text.byteSize cs ≤ room) (hunits : units + unit.measure cs ≤ room) :
    byteOffset room unit column offset units cs =
      .ok (offset + unit.byteOffset cs (column - units)) := by
  induction cs generalizing offset units with
  | nil => rfl
  | cons c cs ih =>
    rw [Text.byteSize] at hbytes
    rw [ColumnUnit.measure_cons] at hunits
    rw [byteOffset, ColumnUnit.byteOffset]
    split
    case isTrue hreached => rw [if_pos (by omega), Nat.add_zero]
    case isFalse hahead =>
      rw [add, if_pos (by omega), add, if_pos (by omega), if_neg (by omega)]
      simp only [bind, Except.bind]
      rw [ih (by omega) (by omega), Nat.sub_sub, Nat.add_assoc]

/-- **No step of a look-up goes wrong**, and it finds the offset of the line
index. -/
theorem offset?_eq (text : String) (p : Position) (unit : ColumnUnit) :
    offset? text p unit = .ok ((LineIndex.ofText text).offset? p unit) := by
  have hlength : (LineIndex.ofText text).starts.length = (LineIndex.ofText text).lines.length :=
    LineIndex.length_startsFrom 0 (Line.scan text)
  rw [offset?, LineIndex.offset?, hlength]
  split
  case isTrue => rw [LineIndex.size_ofText]
  case isFalse =>
    simp only [bind, Except.bind, lineSpan?_eq, LineIndex.lineSpan?]
    cases hline : (LineIndex.ofText text).line? p.line with
    | none => rfl
    | some found =>
      obtain ⟨start, line⟩ := found
      obtain ⟨before, after, htext, rfl⟩ := LineIndex.exists_chars hline
      let rest := (line.ending.map LineBreak.chars).getD [] ++ after
      have hparts : text = String.ofList (before ++ line.content ++ rest) := by
        rw [htext, Line.chars, ← List.append_assoc, List.append_assoc, List.append_assoc]
      have hslice := Text.slice?_ofList before line.content rest
      rw [← hparts] at hslice
      have hsize : Text.byteSize before + Text.byteSize line.content ≤ text.utf8ByteSize := by
        rw [hparts, ← Text.byteSize_eq, Text.byteSize_append, Text.byteSize_append]
        exact Nat.le_add_right _ _
      have hunits := unit.measure_le_byteSize line.content
      have hwithin := unit.byteOffset_le line.content p.column
      have hpass : byteOffset text.utf8ByteSize unit p.column 0 0 line.content =
          .ok (unit.byteOffset line.content p.column) := by
        rw [byteOffset_eq (by omega) (by omega), Nat.zero_add, Nat.sub_zero]
      have hsum : add text.utf8ByteSize (Text.byteSize before)
          (unit.byteOffset line.content p.column) =
          .ok (Text.byteSize before + unit.byteOffset line.content p.column) :=
        if_pos (by omega)
      simp only [Option.map_some, slice, hslice, String.toList_ofList, hpass, hsum]

end Guarded

namespace LineIndex

variable {text : String} {p : Position} {unit : ColumnUnit} {o : Nat}

/-- **An offset that is found is between characters.** -/
theorem isBoundary_of_offset? (h : (ofText text).offset? p unit = some o) :
    Text.isBoundary text o := by
  rw [offset?] at h
  split at h
  · split at h
    case isTrue =>
      rw [size_ofText, Option.some.injEq] at h
      exact Text.isBoundary_iff.2 ⟨text, "", by rw [String.append_empty], h.symm⟩
    case isFalse => cases h
  · obtain ⟨⟨start, line⟩, hline, rfl⟩ := Option.map_eq_some_iff.1 h
    obtain ⟨before, after, htext, rfl⟩ := exists_chars hline
    obtain ⟨taken, rest, hcontent, hoffset⟩ := unit.exists_byteOffset line.content p.column
    refine Text.isBoundary_iff.2 ⟨String.ofList (before ++ taken),
      String.ofList (rest ++ (line.ending.map LineBreak.chars).getD [] ++ after), ?_, ?_⟩
    · rw [htext, ← String.ofList_append, Line.chars, hcontent]
      simp only [List.append_assoc]
    · rw [← Text.byteSize_eq, Text.byteSize_append, ← hoffset]

/-- **A position is not found if its line is past the last one**, where the
start of the line right behind the last one still is found. -/
theorem offset?_eq_none_iff : (ofText text).offset? p unit = none ↔
    (Line.scan text).length < p.line ∨ p.line = (Line.scan text).length ∧ 0 < p.column := by
  have hlines : (ofText text).lines.length = (Line.scan text).length := rfl
  rw [offset?, hlines]
  split
  case isTrue hend =>
    split
    case isTrue hzero => simp [hend, hzero]
    case isFalse hcolumn => simp [hend, Nat.pos_of_ne_zero hcolumn]
  case isFalse hline =>
    have hfound : (ofText text).line? p.line = none ↔ (Line.scan text).length ≤ p.line := by
      rw [line?, List.getElem?_eq_none_iff, List.length_zip, starts, length_startsFrom, ofText,
        Nat.min_self]
    rw [Option.map_eq_none_iff, hfound]
    constructor
    · intro hle
      exact Or.inl (Nat.lt_of_le_of_ne hle (Ne.symm hline))
    · rintro (hlt | ⟨heq, -⟩)
      · exact Nat.le_of_lt hlt
      · exact absurd heq hline

end LineIndex

end Remedy
