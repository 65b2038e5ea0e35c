import Mathlib
import Remedy.Proofs.Text.Lines
import Remedy.Text.Utf16
/-!
# The place of an offset

Where an offset is in a text is told by the text ahead of it alone: the
number of lines that were ended there, and how much of the line that was
begun (`ColumnUnit.placeBehind`). That holds unless the offset is inside of
a `\r\n`, whose `\r` ends a line when nothing comes after it. The line index
finds the offset of such a place again, whatever stands behind it
(`offset?_placeBehind`).
-/

namespace Remedy

/-! ### Columns -/

namespace ColumnUnit

variable {unit : ColumnUnit} {cs ds : List Char}

/-- How many units characters take. -/
def measure (unit : ColumnUnit) (cs : List Char) : Nat := (cs.map unit.width).sum

@[simp] theorem measure_nil : unit.measure [] = 0 := rfl

@[simp] theorem measure_cons (c : Char) (cs : List Char) :
    unit.measure (c :: cs) = unit.width c + unit.measure cs := by
  rw [measure, List.map_cons, List.sum_cons, measure]

@[simp] theorem measure_chars (cs : List Char) : ColumnUnit.chars.measure cs = cs.length := by
  induction cs with
  | nil => rfl
  | cons c cs ih => rw [measure_cons, ih, width, List.length_cons, Nat.add_comm]

/-- Columns of the other kind count the code units of the text in UTF-16. -/
theorem measure_utf16 (cs : List Char) :
    ColumnUnit.utf16.measure cs = (cs.flatMap Utf16.unitsOf).length := by
  induction cs with
  | nil => rfl
  | cons c cs ih =>
    have hunits : ColumnUnit.utf16.width c = (Utf16.unitsOf c).length := by
      have hval : c.val < 0x10000 ↔ c.toNat < 0x10000 := UInt32.lt_iff_toNat_lt
      rw [width, Utf16.unitsOf]
      simp only [hval]
      split <;> rfl
    rw [measure_cons, ih, List.flatMap_cons, List.length_append, hunits]

theorem measure_append (cs ds : List Char) :
    unit.measure (cs ++ ds) = unit.measure cs + unit.measure ds := by
  rw [measure, List.map_append, List.sum_append, measure, measure]

/-- A character takes up a unit at least, and no more units than bytes. -/
theorem width_bounds (unit : ColumnUnit) (c : Char) :
    0 < unit.width c ∧ unit.width c ≤ c.utf8Size := by
  have hsize := c.utf8Size_pos
  cases unit with
  | chars => exact ⟨Nat.one_pos, hsize⟩
  | utf16 =>
    rw [width]
    split
    · exact ⟨Nat.one_pos, hsize⟩
    · next hwide =>
      have htwo : 2 ≤ c.utf8Size := by
        simp only [Char.utf8Size, UInt32.lt_iff_toNat_lt, UInt32.le_iff_toNat_le] at hwide ⊢
        split_ifs with hone
        · exact absurd (Nat.lt_of_le_of_lt hone (by decide)) hwide
        all_goals decide
      exact ⟨Nat.two_pos, htwo⟩

theorem measure_le_byteSize (unit : ColumnUnit) (cs : List Char) :
    unit.measure cs ≤ Text.byteSize cs := by
  induction cs with
  | nil => exact Nat.le_refl 0
  | cons c cs ih =>
    have hwidth := (unit.width_bounds c).2
    rw [measure_cons, Text.byteSize]
    omega

@[simp] theorem byteOffset_zero (cs : List Char) : unit.byteOffset cs 0 = 0 := by
  cases cs <;> rfl

/-- **The column behind characters is at their end.** -/
theorem byteOffset_measure (unit : ColumnUnit) (cs ds : List Char) :
    unit.byteOffset (cs ++ ds) (unit.measure cs) = Text.byteSize cs := by
  induction cs with
  | nil => exact byteOffset_zero ds
  | cons c cs ih =>
    have hwidth := (unit.width_bounds c).1
    rw [List.cons_append, byteOffset, if_neg (by rw [measure_cons]; omega), measure_cons,
      Nat.add_sub_cancel_left, ih, Text.byteSize]

end ColumnUnit

/-! ### Lines -/

namespace Line

variable {cs ds : List Char}

/-- **Characters fall into lines**: each line but the last one ends at the
first break, and a `\r` with a `\n` behind it is no break of its own. -/
inductive Divides : List Char → List Line → Prop
  /-- no break is left -/
  | last {content : List Char} (hfree : ∀ c ∈ content, c ≠ '\r' ∧ c ≠ '\n') :
      Divides content [⟨content, none⟩]
  /-- a `\n` ends the line -/
  | lf {content cs : List Char} {lines : List Line}
      (hfree : ∀ c ∈ content, c ≠ '\r' ∧ c ≠ '\n') (hrest : Divides cs lines) :
      Divides (content ++ '\n' :: cs) (⟨content, some .lf⟩ :: lines)
  /-- a `\r\n` ends the line -/
  | crlf {content cs : List Char} {lines : List Line}
      (hfree : ∀ c ∈ content, c ≠ '\r' ∧ c ≠ '\n') (hrest : Divides cs lines) :
      Divides (content ++ '\r' :: '\n' :: cs) (⟨content, some .crlf⟩ :: lines)
  /-- a lone `\r` ends the line -/
  | cr {content cs : List Char} {lines : List Line}
      (hfree : ∀ c ∈ content, c ≠ '\r' ∧ c ≠ '\n') (hlone : cs.head? ≠ some '\n')
      (hrest : Divides cs lines) : Divides (content ++ '\r' :: cs) (⟨content, some .cr⟩ :: lines)

/-- The scan of a line goes on as long as there is no break. -/
theorem scanFrom_free {free : List Char} (hfree : ∀ c ∈ free, c ≠ '\r' ∧ c ≠ '\n')
    (content : List Char) (done : List Line) (cs : List Char) :
    scanFrom content done (free ++ cs) = scanFrom (free.reverse ++ content) done cs := by
  induction free generalizing content with
  | nil => rfl
  | cons c free ih =>
    obtain ⟨hcr, hlf⟩ := hfree c List.mem_cons_self
    rw [List.cons_append, scanFrom, ih fun d hd => hfree d (List.mem_cons_of_mem c hd),
      List.reverse_cons, List.append_assoc, List.singleton_append]
    · intro _ h
      exact absurd h hcr
    · exact hcr
    · exact hlf

theorem scanFrom_of_divides {lines : List Line} (h : Divides cs lines) (done : List Line) :
    scanFrom [] done cs = done.reverse ++ lines := by
  induction h generalizing done with
  | @last content hfree =>
    rw [← List.append_nil content, scanFrom_free hfree, scanFrom]
    simp
  | lf hfree _ ih =>
    rw [scanFrom_free hfree, scanFrom, ih]
    simp
  | crlf hfree _ ih =>
    rw [scanFrom_free hfree, scanFrom, ih]
    simp
  | @cr content cs lines hfree hlone _ ih =>
    rw [scanFrom_free hfree, scanFrom, ih]
    · simp
    · intro rest hrest
      exact hlone (by rw [hrest]; rfl)

theorem exists_divides (content : List Char) (done : List Line) (cs : List Char)
    (hfree : ∀ c ∈ content, c ≠ '\r' ∧ c ≠ '\n') :
    ∃ lines, Divides (content.reverse ++ cs) lines ∧
      scanFrom content done cs = done.reverse ++ lines := by
  have hnil : ∀ c ∈ ([] : List Char), c ≠ '\r' ∧ c ≠ '\n' := nofun
  have hreverse : ∀ c ∈ content.reverse, c ≠ '\r' ∧ c ≠ '\n' :=
    fun c hc => hfree c (List.mem_reverse.1 hc)
  induction content, done, cs using scanFrom.induct with
  | case1 content done =>
    rw [List.append_nil, scanFrom]
    exact ⟨_, .last hreverse, by simp⟩
  | case2 content done rest ih =>
    obtain ⟨lines, hlines, hscan⟩ := ih hnil hnil
    rw [scanFrom, hscan]
    exact ⟨_, .crlf hreverse hlines, by simp⟩
  | case3 content done rest hcrlf ih =>
    obtain ⟨lines, hlines, hscan⟩ := ih hnil hnil
    rw [scanFrom, hscan]
    · refine ⟨_, .cr hreverse ?_ hlines, by simp⟩
      intro hfirst
      obtain ⟨rest', hrest⟩ := List.head?_eq_some_iff.1 hfirst
      exact hcrlf rest' hrest
    · exact hcrlf
  | case4 content done rest ih =>
    obtain ⟨lines, hlines, hscan⟩ := ih hnil hnil
    rw [scanFrom, hscan]
    exact ⟨_, .lf hreverse hlines, by simp⟩
  | case5 content done c rest hcr hcrlf hlf ih =>
    have hall : ∀ d ∈ c :: content, d ≠ '\r' ∧ d ≠ '\n' := by
      intro d hd
      rcases List.mem_cons.1 hd with rfl | hd
      · exact ⟨hcrlf, hlf⟩
      · exact hfree d hd
    obtain ⟨lines, hlines, hscan⟩ := ih hall fun d hd => hall d (List.mem_reverse.1 hd)
    refine ⟨lines, by simpa using hlines, ?_⟩
    rw [scanFrom, hscan]
    all_goals assumption

/-- **The lines of a text** are those that its characters fall into, and
there is no other way to divide them. -/
theorem divides_iff {text : String} {lines : List Line} :
    Divides text.toList lines ↔ scan text = lines := by
  constructor
  · intro h
    exact scanFrom_of_divides h []
  · rintro rfl
    obtain ⟨lines, hlines, hscan⟩ := exists_divides [] [] text.toList nofun
    rw [scan, hscan]
    exact hlines

/-- Characters that are cut in two between the halves of a `\r\n`. -/
def SplitsBreak (cs ds : List Char) : Prop := cs.getLast? = some '\r' ∧ ds.head? = some '\n'

/-- What else stands around the cut does not matter. -/
theorem SplitsBreak.around {cs ds : List Char} (h : SplitsBreak cs ds) (ahead behind : List Char) :
    SplitsBreak (ahead ++ cs) (ds ++ behind) :=
  ⟨by rw [List.getLast?_append, h.1]; rfl, by rw [List.head?_append, h.2]; rfl⟩

/-- The lines that were finished first stay ahead. -/
theorem scanFrom_append_done (content : List Char) (done : List Line) (cs : List Char)
    (first : List Line) :
    scanFrom content (done ++ first) cs = first.reverse ++ scanFrom content done cs := by
  induction content, done, cs using scanFrom.induct with
  | case1 content done => simp [scanFrom]
  | case2 content done rest ih => exact ih
  | case3 content done rest hcrlf ih =>
    rw [scanFrom, scanFrom]
    · exact ih
    all_goals exact hcrlf
  | case4 content done rest ih => exact ih
  | case5 content done c rest hcr hcrlf hlf ih =>
    rw [scanFrom, scanFrom]
    · exact ih
    all_goals assumption

theorem scanFrom_done (content : List Char) (done : List Line) (cs : List Char) :
    scanFrom content done cs = done.reverse ++ scanFrom content [] cs :=
  scanFrom_append_done content [] cs done

/-- Scanning goes on with the line that was begun. -/
theorem exists_scanFrom (content : List Char) (done : List Line) (cs : List Char) :
    ∃ more ending behind, scanFrom content done cs =
      done.reverse ++ ⟨content.reverse ++ more, ending⟩ :: behind := by
  induction content, done, cs using scanFrom.induct with
  | case1 content done => exact ⟨[], none, [], by simp [scanFrom]⟩
  | case2 content done rest =>
    refine ⟨[], some .crlf, scanFrom [] [] rest, ?_⟩
    rw [scanFrom, scanFrom_done]
    simp
  | case3 content done rest hcrlf =>
    refine ⟨[], some .cr, scanFrom [] [] rest, ?_⟩
    rw [scanFrom, scanFrom_done]
    · simp
    · exact hcrlf
  | case4 content done rest =>
    refine ⟨[], some .lf, scanFrom [] [] rest, ?_⟩
    rw [scanFrom, scanFrom_done]
    simp
  | case5 content done c rest hcr hcrlf hlf ih =>
    obtain ⟨more, ending, behind, hscan⟩ := ih
    refine ⟨c :: more, ending, behind, ?_⟩
    rw [scanFrom, hscan]
    · simp
    all_goals assumption

/-- **Characters are scanned in parts**: what is behind a cut is scanned on
from the line that was begun ahead of it. -/
theorem exists_scanFrom_append (content : List Char) (done : List Line) {cs ds : List Char}
    (h : ¬ SplitsBreak cs ds) :
    ∃ ahead begun, scanFrom content done cs = ahead ++ [⟨begun, none⟩] ∧
      scanFrom content done (cs ++ ds) = ahead ++ scanFrom begun.reverse [] ds := by
  induction content, done, cs using scanFrom.induct with
  | case1 content done =>
    refine ⟨done.reverse, content.reverse, by simp [scanFrom], ?_⟩
    rw [List.nil_append, List.reverse_reverse, scanFrom_done]
  | case2 content done rest ih =>
    refine ih fun hsplits => h ⟨?_, hsplits.2⟩
    simp [List.getLast?_cons, hsplits.1]
  | case3 content done rest hcrlf ih =>
    obtain ⟨ahead, begun, hahead, hscan⟩ := ih fun hsplits => h ⟨by
      simp [List.getLast?_cons, hsplits.1], hsplits.2⟩
    refine ⟨ahead, begun, ?_, ?_⟩
    · rw [scanFrom, hahead]
      exact hcrlf
    · rw [List.cons_append, scanFrom, hscan]
      -- behind the `\r` there is no `\n`, neither in the rest nor past the cut
      intro rest' hrest
      cases rest with
      | nil => exact h ⟨rfl, by rw [← List.nil_append ds, hrest]; rfl⟩
      | cons c rest =>
        rw [List.cons_append, List.cons.injEq] at hrest
        exact hcrlf rest (by rw [hrest.1])
  | case4 content done rest ih =>
    refine ih fun hsplits => h ⟨?_, hsplits.2⟩
    simp [List.getLast?_cons, hsplits.1]
  | case5 content done c rest hcr hcrlf hlf ih =>
    obtain ⟨ahead, begun, hahead, hscan⟩ := ih fun hsplits => h ⟨by
      simp [List.getLast?_cons, hsplits.1], hsplits.2⟩
    refine ⟨ahead, begun, ?_, ?_⟩
    · rw [scanFrom, hahead]
      all_goals assumption
    · rw [List.cons_append, scanFrom, hscan]
      all_goals simp_all

/-- Every line but the last takes up a character at least. -/
theorem length_scanFrom_le (content : List Char) (done : List Line) (cs : List Char) :
    (scanFrom content done cs).length ≤ done.length + 1 + cs.length := by
  induction content, done, cs using scanFrom.induct with
  | case1 content done => simp [scanFrom]
  | case2 content done rest ih =>
    rw [scanFrom]
    simp only [List.length_cons] at ih ⊢
    omega
  | case3 content done rest hcrlf ih =>
    rw [scanFrom]
    · simp only [List.length_cons] at ih ⊢
      omega
    · exact hcrlf
  | case4 content done rest ih =>
    rw [scanFrom]
    simp only [List.length_cons] at ih ⊢
    omega
  | case5 content done c rest hcr hcrlf hlf ih =>
    rw [scanFrom]
    · simp only [List.length_cons] at ih ⊢
      omega
    all_goals assumption

/-- There is at most one line more than there are bytes. -/
theorem length_scan_le (text : String) : (scan text).length ≤ text.utf8ByteSize + 1 := by
  have hlines := length_scanFrom_le [] [] text.toList
  have hbytes := ColumnUnit.chars.measure_le_byteSize text.toList
  rw [ColumnUnit.measure_chars, Text.byteSize_eq, String.ofList_toList] at hbytes
  rw [← scan, List.length_nil] at hlines
  omega

end Line

namespace LineIndex

theorem size_eq (lines : List Line) :
    LineIndex.size ⟨lines⟩ = Text.byteSize (lines.flatMap Line.chars) := by
  induction lines with
  | nil => rfl
  | cons line lines ih =>
    rw [List.flatMap_cons, Text.byteSize_append, ← ih]
    rfl

/-- The offset of a column on a line that follows others. -/
theorem offset?_of_eq {lines ahead behind : List Line} {line : Line}
    (h : lines = ahead ++ line :: behind) (column : Nat) (unit : ColumnUnit) :
    LineIndex.offset? ⟨lines⟩ ⟨ahead.length, column⟩ unit =
      some (Text.byteSize (ahead.flatMap Line.chars) + unit.byteOffset line.content column) := by
  have hlength : ahead.length ≠ lines.length := by
    rw [h, List.length_append, List.length_cons]
    omega
  rw [offset?, if_neg hlength, line?, starts]
  simp only [h, getElem?_zip_startsFrom, Nat.zero_add, Option.map_some]

end LineIndex

/-! ### Places -/

namespace ColumnUnit

variable {unit : ColumnUnit} {ahead before middle after : String}

/-- **The place behind a text**: the lines it ends, and the units it takes
up on the line that it begins. -/
def placeBehind (unit : ColumnUnit) (ahead : String) : Position :=
  ⟨(Line.scan ahead).length - 1,
    unit.measure (((Line.scan ahead).getLast?.map Line.content).getD [])⟩

theorem placeBehind_eq {lines : List Line} {begun : List Char}
    (h : Line.scan ahead = lines ++ [⟨begun, none⟩]) :
    unit.placeBehind ahead = ⟨lines.length, unit.measure begun⟩ := by
  rw [placeBehind, h, List.length_append, List.getLast?_concat]
  rfl

/-- A text ends on its last line, which has no break. -/
theorem exists_begun (ahead : String) : ∃ lines begun, Line.scan ahead = lines ++ [⟨begun, none⟩] ∧
    ahead.toList = lines.flatMap Line.chars ++ begun := by
  have hnot : ¬ Line.SplitsBreak ahead.toList [] := fun h => by cases h.2
  obtain ⟨lines, begun, hscan, -⟩ := Line.exists_scanFrom_append [] [] hnot
  refine ⟨lines, begun, hscan, ?_⟩
  rw [← Line.flatMap_chars_scan ahead, Line.scan, hscan, List.flatMap_append,
    List.flatMap_singleton, Line.chars, Option.map_none, Option.getD_none, List.append_nil]

/-- A place has no more lines ahead than the text has bytes, and no greater
column. -/
theorem placeBehind_le (unit : ColumnUnit) (ahead : String) :
    (unit.placeBehind ahead).line ≤ ahead.utf8ByteSize ∧
      (unit.placeBehind ahead).column ≤ ahead.utf8ByteSize := by
  obtain ⟨lines, begun, hscan, hchars⟩ := exists_begun ahead
  rw [placeBehind_eq hscan]
  constructor
  · have hlines := Line.length_scan_le ahead
    rw [hscan, List.length_append, List.length_singleton] at hlines
    exact Nat.le_of_succ_le_succ hlines
  · have hsize : ahead.utf8ByteSize = Text.byteSize ahead.toList := by
      rw [Text.byteSize_eq, String.ofList_toList]
    rw [hsize, hchars, Text.byteSize_append]
    exact (unit.measure_le_byteSize begun).trans (Nat.le_add_left _ _)

/-- What stands behind a cut leaves the lines ahead of it as they are, and
goes on with the line that was begun. -/
theorem exists_scan_append (h : ¬ Line.SplitsBreak ahead.toList after.toList) :
    ∃ lines begun more ending behind, Line.scan ahead = lines ++ [⟨begun, none⟩] ∧
      Line.scan (ahead ++ after) = lines ++ ⟨begun ++ more, ending⟩ :: behind ∧
      ahead.toList = lines.flatMap Line.chars ++ begun := by
  obtain ⟨lines, begun, hahead, hscan⟩ := Line.exists_scanFrom_append [] [] h
  obtain ⟨more, ending, behind, hmore⟩ := Line.exists_scanFrom begun.reverse [] after.toList
  rw [List.reverse_reverse, List.reverse_nil, List.nil_append] at hmore
  refine ⟨lines, begun, more, ending, behind, hahead, ?_, ?_⟩
  · rw [Line.scan, String.toList_append, hscan, hmore]
  · obtain ⟨lines', begun', hscan', hchars⟩ := exists_begun ahead
    have heq := hahead.symm.trans hscan'
    obtain ⟨rfl, hlast⟩ := List.append_inj' heq rfl
    cases hlast
    exact hchars

/-- **The line index finds a place again**, whatever stands behind it. -/
theorem offset?_placeBehind (unit : ColumnUnit)
    (h : ¬ Line.SplitsBreak ahead.toList after.toList) :
    (LineIndex.ofText (ahead ++ after)).offset? (unit.placeBehind ahead) unit =
      some ahead.utf8ByteSize := by
  obtain ⟨lines, begun, more, ending, behind, hahead, hscan, hchars⟩ := exists_scan_append h
  rw [placeBehind_eq hahead, LineIndex.ofText, LineIndex.offset?_of_eq hscan, byteOffset_measure,
    ← Text.byteSize_append, ← hchars, Text.byteSize_eq, String.ofList_toList]

/-- **Places are in the order of their offsets.** -/
theorem placeBehind_append (unit : ColumnUnit)
    (h : ¬ Line.SplitsBreak ahead.toList after.toList) :
    (unit.placeBehind ahead).line < (unit.placeBehind (ahead ++ after)).line ∨
      (unit.placeBehind ahead).line = (unit.placeBehind (ahead ++ after)).line ∧
        (unit.placeBehind ahead).column ≤ (unit.placeBehind (ahead ++ after)).column := by
  obtain ⟨lines, begun, more, ending, behind, hahead, hscan, -⟩ := exists_scan_append h
  rw [placeBehind_eq hahead, placeBehind, hscan, List.length_append, List.length_cons]
  cases behind with
  | nil =>
    refine Or.inr ⟨rfl, ?_⟩
    rw [List.getLast?_concat, Option.map_some, Option.getD_some, measure_append]
    exact Nat.le_add_right _ _
  | cons next behind =>
    refine Or.inl ?_
    simp only [List.length_cons]
    omega

end ColumnUnit

/-! ### Offsets -/

namespace Text

variable {text : String} {s e : Nat} {unit : ColumnUnit}

/-- An offset between the two characters of a `\r\n`. -/
def IsInsideBreak (text : String) (s : Nat) : Prop :=
  ∃ before after, text = before ++ "\r\n" ++ after ∧ s = before.utf8ByteSize + 1

/-- An offset is inside of a break if its neighbours are the break. -/
theorem isInsideBreak_iff :
    IsInsideBreak text s ↔ 0 < s ∧ slice? text ⟨s - 1, s + 1⟩ = some "\r\n" := by
  have hsize : "\r\n".utf8ByteSize = 2 := rfl
  rw [slice?_eq_some_iff, hsize]
  constructor
  · rintro ⟨before, after, htext, rfl⟩
    exact ⟨Nat.succ_pos _, before, after, htext, rfl⟩
  · rintro ⟨hpos, before, after, htext, hspan⟩
    obtain ⟨hstart, -⟩ := Span.mk.inj hspan
    exact ⟨before, after, htext, by omega⟩

instance : Decidable (IsInsideBreak text s) := decidable_of_iff _ isInsideBreak_iff.symm

/-- The place of an offset: that behind the text ahead of it. -/
def place (unit : ColumnUnit) (text : String) (s : Nat) : Position :=
  unit.placeBehind ((slice? text ⟨0, s⟩).getD text)

theorem place_append (unit : ColumnUnit) (before after : String) :
    place unit (before ++ after) before.utf8ByteSize = unit.placeBehind before := by
  have hslice : slice? (before ++ after) ⟨0, before.utf8ByteSize⟩ = some before :=
    slice?_eq_some_iff.2 ⟨"", after, by rw [String.empty_append], by simp⟩
  rw [place, hslice, Option.getD_some]

/-- Texts that divide a `\r\n` meet inside of it. -/
theorem isInsideBreak_of_splitsBreak {before after : String}
    (h : Line.SplitsBreak before.toList after.toList) :
    IsInsideBreak (before ++ after) before.utf8ByteSize := by
  obtain ⟨hlast, hfirst⟩ := h
  obtain ⟨cs, hcs⟩ := List.getLast?_eq_some_iff.1 hlast
  obtain ⟨ds, hds⟩ := List.head?_eq_some_iff.1 hfirst
  refine ⟨String.ofList cs, String.ofList ds, ?_, ?_⟩
  · apply String.toList_inj.1
    simp [hcs, hds]
  · rw [← byteSize_eq, ← String.ofList_toList (s := before), hcs, ← byteSize_eq, byteSize_append]
    rfl

/-- **Two offsets in order, and their places.** The line index finds both
of them again, and the second place is not ahead of the first. -/
theorem offsets_of_places (unit : ColumnUnit) (hle : s ≤ e) (hs : isBoundary text s)
    (he : isBoundary text e) (hs' : ¬ IsInsideBreak text s) (he' : ¬ IsInsideBreak text e) :
    (LineIndex.ofText text).offset? (place unit text s) unit = some s ∧
    (LineIndex.ofText text).offset? (place unit text e) unit = some e ∧
    ((place unit text s).line < (place unit text e).line ∨
      (place unit text s).line = (place unit text e).line ∧
        (place unit text s).column ≤ (place unit text e).column) := by
  obtain ⟨before, middle, after, rfl, rfl, rfl⟩ := exists_parts hs he hle
  rw [← String.utf8ByteSize_append] at he' ⊢
  have hstop := fun h => he' (isInsideBreak_of_splitsBreak h)
  rw [String.append_assoc] at hs'
  have hstart := fun h => hs' (isInsideBreak_of_splitsBreak h)
  have hplace : place unit (before ++ middle ++ after) before.utf8ByteSize =
      unit.placeBehind before := by
    rw [String.append_assoc, place_append]
  have hsplits : ¬ Line.SplitsBreak before.toList middle.toList := by
    intro h
    refine hstart ?_
    rw [String.toList_append]
    exact h.around [] after.toList
  rw [hplace, place_append]
  refine ⟨?_, unit.offset?_placeBehind hstop, unit.placeBehind_append hsplits⟩
  rw [String.append_assoc]
  exact unit.offset?_placeBehind hstart

/-- The numbers of a place are no greater than the text is long. -/
theorem place_le (unit : ColumnUnit) (hs : isBoundary text s) :
    (place unit text s).line ≤ text.utf8ByteSize ∧
      (place unit text s).column ≤ text.utf8ByteSize := by
  obtain ⟨before, after, rfl, rfl⟩ := isBoundary_iff.1 hs
  obtain ⟨hline, hcolumn⟩ := unit.placeBehind_le before
  rw [place_append, String.utf8ByteSize_append]
  omega

/-- **A line and its break**: they are between the starts of the line and of
the next one, which is the end of the text for the last line. -/
theorem offsets_of_line {ahead behind : List Line} {line : Line} (unit : ColumnUnit)
    (h : Line.Divides text.toList (ahead ++ line :: behind)) :
    (LineIndex.ofText text).offset? ⟨ahead.length, 0⟩ unit =
      some (byteSize (ahead.flatMap Line.chars)) ∧
    (LineIndex.ofText text).offset? ⟨ahead.length + 1, 0⟩ unit =
      some (byteSize (ahead.flatMap Line.chars) + line.size) := by
  have hscan := Line.divides_iff.1 h
  have hends : byteSize ((ahead ++ [line]).flatMap Line.chars) =
      byteSize (ahead.flatMap Line.chars) + line.size := by
    rw [List.flatMap_append, List.flatMap_singleton, byteSize_append, Line.size]
  constructor
  · rw [LineIndex.ofText, LineIndex.offset?_of_eq hscan, ColumnUnit.byteOffset_zero, Nat.add_zero]
  · cases behind with
    | nil =>
      rw [LineIndex.ofText, LineIndex.offset?, hscan]
      simp only [List.length_append, List.length_singleton, if_true]
      rw [LineIndex.size_eq, hends]
    | cons next behind =>
      have hnext : Line.scan text = (ahead ++ [line]) ++ next :: behind := by
        rw [hscan, List.append_assoc, List.singleton_append]
      have hoffset := LineIndex.offset?_of_eq hnext 0 unit
      rw [List.length_append, List.length_singleton, ColumnUnit.byteOffset_zero, hends,
        Nat.add_zero] at hoffset
      exact hoffset

end Text

end Remedy
