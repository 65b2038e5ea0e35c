import Mathlib
import Remedy.Change.Plan
import Remedy.Findings.Sarif
import Remedy.Findings.Semgrep
import Remedy.Proofs.Text.Place
/-!
# Coordinates address the text they are meant for

A tool writes down where a piece of text is: lines and columns from one, in
the units that it declares. Read from a SARIF log or from the output of
Semgrep, these numbers give the piece back, to the byte
(`region?_of_coordinates`). The numbers fit the fields of a report unless
the text is larger than those can tell.
-/

namespace Remedy

/-! ### What tools write -/

/-- The columns of a run count UTF-16 code units, unless it says that they
count code points. -/
def Sarif.Run.Declares (run : Sarif.Run) : ColumnUnit → Prop
  | .utf16 => run.columnKind = none ∨ run.columnKind = some "utf16CodeUnits"
  | .chars => run.columnKind = some "unicodeCodePoints"

/-- The region between two places, counted from one. -/
def Sarif.Region.between (start stop : Position) : Sarif.Region :=
  ⟨some (start.line + 1), some (start.column + 1), some (stop.line + 1), some (stop.column + 1),
    none, none⟩

/-- The region of a line, counted from one. -/
def Sarif.Region.wholeLine (line : Nat) : Sarif.Region :=
  ⟨some (line + 1), none, none, none, none, none⟩

/-- The mark at a place, counted from one. -/
def Semgrep.Mark.at (p : Position) : Semgrep.Mark := ⟨p.line + 1, p.column + 1, none⟩

/-! ### What is read -/

theorem Sarif.Run.Declares.columns_eq {run : Sarif.Run} {columns : ColumnUnit}
    (h : run.Declares columns) : run.columns = columns := by
  cases columns with
  | chars => exact if_pos h
  | utf16 =>
    refine if_neg ?_
    rcases h with h | h <;> rw [h] <;> decide

/-- The later of two places in order is the second one. -/
theorem Position.later_eq {p q : Position}
    (h : p.line < q.line ∨ p.line = q.line ∧ p.column ≤ q.column) : q.later p = q := by
  refine if_neg ?_
  rcases h with hline | ⟨hline, hcolumn⟩
  · rw [order, Nat.compare_eq_gt.2 hline]
    exact Bool.false_ne_true
  · rw [order, Nat.compare_eq_eq.2 hline.symm, Ordering.isLT_iff_eq_lt]
    exact fun hlt => Nat.not_lt.2 hcolumn (Nat.compare_eq_lt.1 hlt)

/-- A region between two places in order is read as these places. -/
theorem Sarif.Region.location?_between {start stop : Position} (columns : ColumnUnit)
    (h : start.line < stop.line ∨ start.line = stop.line ∧ start.column ≤ stop.column) :
    (between start stop).location? columns = some ⟨start, stop, none, columns⟩ := by
  have hlast : max stop.line start.line = stop.line := by omega
  have hlater := Position.later_eq h
  simp only [location?, between, bytes?, firstLine?, Option.getD_some, Option.map_some,
    Nat.add_sub_cancel, hlast, hlater, bind, Option.bind]

/-- A region of a line is read as from its start to that of the next one. -/
theorem Sarif.Region.location?_wholeLine (line : Nat) (columns : ColumnUnit) :
    (wholeLine line).location? columns = some ⟨⟨line, 0⟩, ⟨line + 1, 0⟩, none, columns⟩ := by
  have hlater : (⟨line + 1, 0⟩ : Position).later ⟨line, 0⟩ = ⟨line + 1, 0⟩ :=
    Position.later_eq (Or.inl (Nat.lt_succ_self line))
  simp only [location?, wholeLine, bytes?, firstLine?, Option.getD_none, Option.map_none,
    Nat.sub_self, max_self, hlater, bind, Option.bind]

/-- A result between two places in order is read as these places. -/
theorem Semgrep.Result.location_eq {result : Semgrep.Result} {start stop : Position}
    (hstart : result.start = .at start) (hstop : result.stop = .at stop)
    (h : start.line < stop.line ∨ start.line = stop.line ∧ start.column ≤ stop.column) :
    result.location = ⟨start, stop, none, .chars⟩ := by
  have hlater := Position.later_eq h
  simp only [location, hstart, hstop, Mark.position, Mark.at, Nat.add_sub_cancel, hlater]

/-- Without bytes, a location means what is between the offsets of its
ends. -/
theorem Location.region?_of_offsets {unit : SourceUnit} {start stop : Position}
    {columns : ColumnUnit} {s e : Nat} (hle : s ≤ e)
    (hs : unit.lines.offset? start columns = some s)
    (he : unit.lines.offset? stop columns = some e) :
    Location.region? unit ⟨start, stop, none, columns⟩ = some ⟨s, e⟩ := by
  have hlines : Location.lineRegion? unit ⟨start, stop, none, columns⟩ = some ⟨s, e⟩ := by
    rw [lineRegion?]
    simp only [hs, he, Option.getD_some, Nat.max_eq_left hle, bind, Option.bind]
  rw [region?, hlines]
  rfl

/-- The lines and columns of a text are small enough for a report. -/
theorem Text.place_succ_lt {text : String} (hsize : text.utf8ByteSize < 2 ^ 32 - 1)
    (columns : ColumnUnit) {s : Nat} (hs : isBoundary text s) :
    (place columns text s).line + 1 < 2 ^ 32 ∧ (place columns text s).column + 1 < 2 ^ 32 := by
  have hle := place_le columns hs
  omega

/-- **Coordinates address the text they are meant for.** Take two offsets in
order between characters, and neither inside of a `\r\n`. Their lines and
columns from one are numbers that a report can hold; and the span between
the offsets is what a region of a SARIF log with these numbers means, in the
columns that its run declares, as well as a result of Semgrep. A region that
tells a line alone means that line with its break. -/
theorem region?_of_coordinates {unit : SourceUnit}
    (hsize : unit.text.utf8ByteSize < 2 ^ 32 - 1) :
    (∀ s e : Nat, s ≤ e → Text.isBoundary unit.text s → Text.isBoundary unit.text e →
      ¬ Text.IsInsideBreak unit.text s → ¬ Text.IsInsideBreak unit.text e →
      (∀ columns : ColumnUnit, ∀ t ∈ [s, e], (Text.place columns unit.text t).line + 1 < 2 ^ 32 ∧
        (Text.place columns unit.text t).column + 1 < 2 ^ 32) ∧
      (∀ (run : Sarif.Run) (columns : ColumnUnit), run.Declares columns → ∃ location,
        (Sarif.Region.between (Text.place columns unit.text s)
          (Text.place columns unit.text e)).location? run.columns = some location ∧
        location.region? unit = some ⟨s, e⟩) ∧
      ∀ result : Semgrep.Result, result.start = .at (Text.place .chars unit.text s) →
        result.stop = .at (Text.place .chars unit.text e) →
        result.location.region? unit = some ⟨s, e⟩) ∧
    ∀ (ahead : List Line) (line : Line) (behind : List Line),
      Line.Divides unit.text.toList (ahead ++ line :: behind) →
      ahead.length + 1 < 2 ^ 32 ∧ ∀ columns, ∃ location,
        (Sarif.Region.wholeLine ahead.length).location? columns = some location ∧
        location.region? unit = some ⟨Text.byteSize (ahead.flatMap Line.chars),
          Text.byteSize (ahead.flatMap Line.chars) + line.size⟩ := by
  constructor
  · intro s e hle hs he hs' he'
    refine ⟨?_, ?_, ?_⟩
    · intro columns t ht
      rcases List.mem_pair.1 ht with rfl | rfl
      · exact Text.place_succ_lt hsize columns hs
      · exact Text.place_succ_lt hsize columns he
    · intro run columns hdeclares
      obtain ⟨hstart, hstop, hplaces⟩ := Text.offsets_of_places columns hle hs he hs' he'
      rw [hdeclares.columns_eq]
      exact ⟨_, Sarif.Region.location?_between columns hplaces,
        Location.region?_of_offsets hle hstart hstop⟩
    · intro result hfirst hlast
      obtain ⟨hstart, hstop, hplaces⟩ := Text.offsets_of_places .chars hle hs he hs' he'
      rw [Semgrep.Result.location_eq hfirst hlast hplaces]
      exact Location.region?_of_offsets hle hstart hstop
  · intro ahead line behind hdivides
    refine ⟨?_, ?_⟩
    · have hlines := Line.length_scan_le unit.text
      rw [Line.divides_iff.1 hdivides, List.length_append, List.length_cons] at hlines
      omega
    · intro columns
      obtain ⟨hstart, hstop⟩ := Text.offsets_of_line columns hdivides
      exact ⟨_, Sarif.Region.location?_wholeLine ahead.length columns,
        Location.region?_of_offsets (Nat.le_add_right _ _) hstart hstop⟩

/-- A file with a character outside the basic plane, and a break of two
characters. -/
def smiling : SourceUnit := ⟨⟨"a.xml"⟩, .xml, .utf8, "a😀b\r\nc", .plain⟩

/-- What follows the wide character, up to the end of the next line. -/
theorem region?_of_coordinates_smiling :
    smiling.text.utf8ByteSize < 2 ^ 32 - 1 ∧
    (Text.isBoundary smiling.text 5 ∧ ¬ Text.IsInsideBreak smiling.text 5) ∧
    (Text.isBoundary smiling.text 9 ∧ ¬ Text.IsInsideBreak smiling.text 9) ∧
    Text.place .utf16 smiling.text 5 = ⟨0, 3⟩ ∧ Text.place .utf16 smiling.text 9 = ⟨1, 1⟩ ∧
    ∃ location, (⟨some 1, some 4, some 2, some 2, none, none⟩ : Sarif.Region).location? .utf16 =
      some location ∧ location.region? smiling = some ⟨5, 9⟩ := by
  have hsize : smiling.text.utf8ByteSize < 2 ^ 32 - 1 := by decide +kernel
  have hs : Text.isBoundary smiling.text 5 ∧ ¬ Text.IsInsideBreak smiling.text 5 := by
    decide +kernel
  have he : Text.isBoundary smiling.text 9 ∧ ¬ Text.IsInsideBreak smiling.text 9 := by
    decide +kernel
  have hstart : Text.place .utf16 smiling.text 5 = ⟨0, 3⟩ := by decide +kernel
  have hstop : Text.place .utf16 smiling.text 9 = ⟨1, 1⟩ := by decide +kernel
  obtain ⟨-, hregion, -⟩ :=
    (region?_of_coordinates hsize).1 5 9 (by decide) hs.1 he.1 hs.2 he.2
  have hmeant := hregion ⟨⟨"tool", []⟩, none, none⟩ .utf16 (Or.inl rfl)
  rw [hstart, hstop] at hmeant
  exact ⟨hsize, hs, he, hstart, hstop, hmeant⟩

end Remedy
