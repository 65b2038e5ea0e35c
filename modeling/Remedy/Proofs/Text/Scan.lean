import Mathlib.Data.List.Basic
import Remedy.Diff.Hunk
/-!
# Lines make up their text

The scan of a text loses no character: the lines it finds, each with its
break, stand one behind the other as the text does. The line diff leaves
out an empty last line only, so its lines make up the text too.
-/

namespace Remedy

namespace Line

/-- What was read and what is left make up what is scanned. -/
theorem flatMap_chars_scanFrom (content : List Char) (done : List Line) (cs : List Char) :
    (scanFrom content done cs).flatMap chars =
      done.reverse.flatMap chars ++ (content.reverse ++ cs) := by
  induction content, done, cs using scanFrom.induct with
  | case1 content done => simp [scanFrom, chars]
  | case2 content done rest ih => simp [scanFrom, ih, chars, LineBreak.chars]
  | case3 content done rest hcrlf ih =>
    rw [scanFrom, ih]
    · simp [chars, LineBreak.chars]
    · exact hcrlf
  | case4 content done rest ih => simp [scanFrom, ih, chars, LineBreak.chars]
  | case5 content done c rest hcr hcrlf hlf ih =>
    rw [scanFrom, ih]
    · simp
    all_goals assumption

/-- **The lines of a text make it up.** -/
theorem flatMap_chars_scan (text : String) : (scan text).flatMap chars = text.toList := by
  rw [scan, flatMap_chars_scanFrom]
  simp

theorem scanFrom_ne_nil (content : List Char) (done : List Line) (cs : List Char) :
    scanFrom content done cs ≠ [] := by
  induction content, done, cs using scanFrom.induct with
  | case1 content done => simp [scanFrom]
  | case2 content done rest ih => exact ih
  | case3 content done rest hcrlf ih =>
    rw [scanFrom]
    · exact ih
    · exact hcrlf
  | case4 content done rest ih => exact ih
  | case5 content done c rest hcr hcrlf hlf ih =>
    rw [scanFrom]
    · exact ih
    all_goals assumption

/-- There is always a last line. -/
theorem scan_ne_nil (text : String) : scan text ≠ [] := scanFrom_ne_nil [] [] text.toList

end Line

namespace Diff

/-- The lines that the diff leaves out are those without characters. -/
theorem chars_ne_nil_iff (line : Line) :
    line.chars ≠ [] ↔ (line.ending.isSome || !line.content.isEmpty) := by
  obtain ⟨content, ending⟩ := line
  cases ending with
  | none => simp [Line.chars]
  | some ending => cases ending <;> simp [Line.chars, LineBreak.chars]

/-- Lines without those that the diff leaves out have the same
characters. -/
theorem flatMap_shown (lines : List Line) :
    ((lines.filter fun line => line.ending.isSome || !line.content.isEmpty).map
      fun line => String.ofList line.chars).flatMap String.toList = lines.flatMap Line.chars := by
  induction lines with
  | nil => rfl
  | cons line lines ih =>
    by_cases hkept : line.ending.isSome || !line.content.isEmpty
    · rw [List.filter_cons, if_pos hkept, List.map_cons, List.flatMap_cons, ih,
        List.flatMap_cons, String.toList_ofList]
    · rw [List.filter_cons, if_neg hkept, ih, List.flatMap_cons,
        not_not.1 (mt (chars_ne_nil_iff line).1 hkept), List.nil_append]

/-- **The lines of the diff make up the text.** -/
theorem join_linesOf (text : String) : String.join (linesOf text).toList = text := by
  apply String.toList_inj.1
  rw [String.toList_join, linesOf, Array.toList_map, flatMap_shown, Line.flatMap_chars_scan]

end Diff

end Remedy
