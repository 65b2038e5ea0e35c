import Mathlib
import Remedy.Proofs.Text.Positions
/-!
# The numbers of lines

The line index and the line diff count the same lines, except that the
index has an empty line behind a break at the end (`Diff.exists_linesOf`).
So where the line diff has a line begin, the index is at the start of the
line of that number (`Diff.position_offsetOf`); behind the last line that
holds only if this line has a break, or there is none.
-/

namespace Remedy

namespace Text

/-- **A text ends in a break**: its last character is one of a break. -/
def EndsInBreak (text : String) : Prop :=
  text.toList.getLast? = some '\n' ∨ text.toList.getLast? = some '\r'

theorem EndsInBreak.append {before after : String} (h : EndsInBreak after) :
    EndsInBreak (before ++ after) := by
  rw [EndsInBreak, String.toList_append, List.getLast?_append]
  refine h.imp (fun hlast => ?_) fun hlast => ?_ <;> rw [hlast] <;> rfl

end Text

namespace Diff

variable {text : String}

/-- **Whole lines of a text**: those that its characters fall into, each
with its break, without an empty one at the end. -/
def WholeLines (text : String) (ls : Array String) : Prop :=
  ∃ lines, Line.Divides text.toList lines ∧
    ls.toList = (lines.map fun line => String.ofList line.chars).filter (· ≠ "")

/-- **The lines of the diff are the whole lines** of the text. -/
theorem wholeLines_iff {ls : Array String} : WholeLines text ls ↔ ls = linesOf text := by
  have hshown : ∀ lines : List Line,
      (lines.map fun line => String.ofList line.chars).filter (· ≠ "") =
        (lines.filter fun line => line.ending.isSome || !line.content.isEmpty).map
          fun line => String.ofList line.chars := by
    intro lines
    rw [List.filter_map]
    congr 1
    refine List.filter_congr fun line _ => ?_
    rw [Bool.eq_iff_iff, ← chars_ne_nil_iff]
    simp [String.ofList_eq_empty_iff]
  constructor
  · rintro ⟨lines, hlines, hls⟩
    rw [← Array.toList_inj, hls, hshown, linesOf, Line.divides_iff.1 hlines, Array.toList_map]
  · rintro rfl
    refine ⟨Line.scan text, Line.divides_iff.2 rfl, ?_⟩
    rw [hshown, linesOf, Array.toList_map]

/-- **The lines of the index and those of the diff**: they are the same,
without the last one of the index if it is empty. -/
theorem exists_linesOf (text : String) : ∃ ended begun,
    Line.scan text = ended ++ [⟨begun, none⟩] ∧ (∀ line ∈ ended, line.ending.isSome) ∧
      (∀ c ∈ begun, c ≠ '\r' ∧ c ≠ '\n') ∧
      (linesOf text).toList = (ended.map fun line => String.ofList line.chars) ++
        if begun = [] then [] else [String.ofList begun] := by
  obtain ⟨ended, begun, hscan, hended, hfree⟩ :=
    Line.exists_ended (Line.divides_iff.2 (Eq.refl (Line.scan text)))
  refine ⟨ended, begun, hscan, hended, hfree, ?_⟩
  have hall : ended.filter (fun line => line.ending.isSome || !line.content.isEmpty) = ended :=
    List.filter_eq_self.2 fun line hline => by rw [hended line hline, Bool.true_or]
  rw [linesOf, hscan, Array.toList_map, List.filter_append, hall, List.map_append]
  cases begun with
  | nil => rfl
  | cons c cs =>
    rw [if_neg (List.cons_ne_nil c cs)]
    simp [Line.chars]

/-- No line of the diff is empty. -/
theorem ne_empty_of_mem_linesOf {line : String} (h : line ∈ linesOf text) : line ≠ "" := by
  obtain ⟨lines, -, hls⟩ := wholeLines_iff.2 (Eq.refl (linesOf text))
  rw [← Array.mem_toList_iff, hls] at h
  simpa using (List.mem_filter.1 h).2

/-- Each line of the diff ends in a break, but for the last one. -/
theorem endsInBreak_getElem {k : Nat} (h : k + 1 < (linesOf text).size) :
    Text.EndsInBreak ((linesOf text)[k]) := by
  obtain ⟨ended, begun, -, hended, -, hls⟩ := exists_linesOf text
  have hsize : (linesOf text).size ≤ ended.length + 1 := by
    rw [← Array.length_toList, hls, List.length_append, List.length_map]
    split <;> simp
  have hk : k < ended.length := by omega
  have hline : (linesOf text)[k] = String.ofList ended[k].chars := by
    rw [← Array.getElem_toList]
    simp only [hls]
    rw [List.getElem_append_left (by simpa using hk), List.getElem_map]
  rw [hline, Text.EndsInBreak, String.toList_ofList]
  exact Line.getLast?_chars (hended _ (List.getElem_mem hk))

/-- **The lines of the diff are numbered as the index numbers them**: where
a line begins, the position is the start of the line of that number; and so
it is behind the last line, if the text ends in a break or is empty. -/
theorem position_offsetOf {n : Nat} (hn : n ≤ (linesOf text).size)
    (hlast : n = (linesOf text).size → text = "" ∨ Text.EndsInBreak text) :
    (LineIndex.ofText text).position (offsetOf (linesOf text) n) = ⟨n, 0⟩ := by
  obtain ⟨ended, begun, hscan, hended, hfree, hls⟩ := exists_linesOf text
  have hchars : text.toList = ended.flatMap Line.chars ++ begun := by
    rw [← Line.flatMap_chars_scan text, hscan, List.flatMap_append, List.flatMap_singleton,
      Line.chars, Option.map_none, Option.getD_none, List.append_nil]
  have hle : n ≤ ended.length := by
    by_contra hbeyond
    have hsize := hn
    rw [← Array.length_toList, hls, List.length_append, List.length_map] at hsize
    -- the line is behind one that was begun, so the text does not end in a break
    have hbegun : begun ≠ [] := by
      rintro rfl
      simp at hsize
      omega
    rw [if_neg hbegun, List.length_singleton] at hsize
    have hend : n = (linesOf text).size := by
      rw [← Array.length_toList, hls, List.length_append, List.length_map, if_neg hbegun,
        List.length_singleton]
      omega
    rcases hlast hend with rfl | hbreak
    · exact hbegun (List.append_eq_nil_iff.1 hchars.symm).2
    · rw [Text.EndsInBreak, hchars, List.getLast?_append_of_ne_nil _ hbegun] at hbreak
      rcases hbreak with hlf | hcr
      · exact (hfree _ (List.mem_of_getLast? hlf)).2 rfl
      · exact (hfree _ (List.mem_of_getLast? hcr)).1 rfl
  have hoffset : offsetOf (linesOf text) n =
      Text.byteSize ((ended.take n).flatMap Line.chars) := by
    rw [offsetOf, textOf, Array.toList_extract, hls, List.extract_eq_take_drop, List.drop_zero,
      Nat.sub_zero, List.take_append_of_le_length (by rwa [List.length_map]), ← List.map_take,
      Text.utf8ByteSize_eq, String.toList_join, List.flatMap_map]
    simp only [String.toList_ofList]
  have hlines : Line.scan text = ended.take n ++ (ended.drop n ++ [⟨begun, none⟩]) := by
    rw [hscan, ← List.append_assoc, List.take_append_drop]
  have hlength : (ended.take n).length = n := by
    rw [List.length_take, Nat.min_eq_left hle]
  rw [hoffset]
  cases hdrop : ended.drop n with
  | nil =>
    rw [hdrop, List.nil_append] at hlines
    rw [LineIndex.position_start hlines (.inl rfl), hlength]
  | cons line rest =>
    have hline : 0 < line.size := Line.size_pos (hended line (List.mem_of_mem_drop (i := n)
      (hdrop ▸ List.mem_cons_self)))
    rw [hdrop, List.cons_append] at hlines
    rw [LineIndex.position_start hlines (.inr hline), hlength]

end Diff

end Remedy
