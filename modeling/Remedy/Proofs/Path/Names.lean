import Mathlib
import Remedy.Proofs.Runs
import Remedy.Source.Language
/-!
# The last name of a path

What follows the last point of a file name is its extension, unless nothing
is ahead of that point (`Path.extension?_eq_some_iff`). The language of a
path is known if its last name ends in a point and `java` or `xml`, in
letters of any case (`Language.isSome_ofPath?_iff`).
-/

namespace Remedy

variable {p : Path} {name extension : String} {names : List String}

namespace Path

/-- The file name of a path made of names is the last of them. -/
theorem fileName?_of_components (h : p.components = names.map .name) :
    p.fileName? = names.getLast? := by
  rw [fileName?, h, List.getLast?_map]
  cases names.getLast? <;> rfl

/-- **The extension of a name** is what stands behind its last point, if
something stands ahead of it. -/
theorem extension?_eq_some_iff (h : p.fileName? = some name) :
    p.extension? = some extension ↔ ∃ stem, stem ≠ "" ∧ '.' ∉ extension.toList ∧
      name = stem ++ "." ++ extension := by
  rw [extension?, h]
  simp only [Option.bind_eq_bind, Option.bind_some, drop_length_takeWhile]
  constructor
  · intro hfound
    split at hfound
    case h_2 => cases hfound
    case h_1 c cs hrest =>
      cases hfound
      have hreversed : name.toList.reverse =
          name.toList.reverse.takeWhile (· ≠ '.') ++ '.' :: c :: cs := by
        rw [← hrest, List.takeWhile_append_dropWhile]
      refine ⟨String.ofList (c :: cs).reverse, ?_, ?_, ?_⟩
      · rw [Ne, String.ofList_eq_empty_iff, List.reverse_eq_nil_iff]
        exact List.cons_ne_nil c cs
      · intro hpoint
        rw [String.toList_ofList, List.mem_reverse] at hpoint
        simpa using List.mem_takeWhile_imp hpoint
      · refine String.toList_injective (List.reverse_injective (hreversed.trans ?_))
        simp
  · rintro ⟨stem, hstem, hpoint, rfl⟩
    obtain ⟨c, cs, hahead⟩ := List.exists_cons_of_ne_nil
      (mt List.reverse_eq_nil_iff.1 (mt String.toList_eq_nil_iff.1 hstem))
    have hreversed : (stem ++ "." ++ extension).toList.reverse =
        extension.toList.reverse ++ '.' :: c :: cs := by
      rw [← hahead]
      simp
    have hplain : ∀ d ∈ extension.toList.reverse, decide (d ≠ '.') := by
      rintro d hd
      rw [decide_eq_true_eq]
      rintro rfl
      exact hpoint (List.mem_reverse.1 hd)
    have hends : ∀ a ∈ ('.' :: c :: cs).head?, ¬ decide (a ≠ '.') := by
      rintro a ha
      cases ha
      decide
    rw [hreversed, takeWhile_run hplain hends, dropWhile_run hplain hends]
    simp

end Path

/-- **The language of a path is known** by the extension of its last name. -/
theorem Language.isSome_ofPath?_iff (h : p.components = names.map .name) :
    (ofPath? p).isSome ↔ ∃ above stem extension, names = above ++ [stem ++ "." ++ extension] ∧
      stem ≠ "" ∧ '.' ∉ extension.toList ∧ Text.lowerAscii extension ∈ ["java", "xml"] := by
  have hlanguage : (ofPath? p).isSome ↔
      ∃ extension, p.extension? = some extension ∧
        Text.lowerAscii extension ∈ ["java", "xml"] := by
    rw [ofPath?]
    cases p.extension? with
    | none => simp
    | some extension =>
      simp only [Option.bind_eq_bind, Option.bind_some, Option.some.injEq, exists_eq_left']
      split <;> simp_all
  rw [hlanguage]
  constructor
  · rintro ⟨extension, hextension, hknown⟩
    cases hlast : names.getLast? with
    | none =>
      rw [Path.extension?, Path.fileName?_of_components h, hlast] at hextension
      cases hextension
    | some name =>
      have hname := (Path.fileName?_of_components h).trans hlast
      obtain ⟨stem, hstem, hpoint, rfl⟩ := (Path.extension?_eq_some_iff hname).1 hextension
      obtain ⟨above, rfl⟩ := List.getLast?_eq_some_iff.1 hlast
      exact ⟨above, stem, extension, rfl, hstem, hpoint, hknown⟩
  · rintro ⟨above, stem, extension, rfl, hstem, hpoint, hknown⟩
    have hname := (Path.fileName?_of_components h).trans List.getLast?_concat
    exact ⟨extension, (Path.extension?_eq_some_iff hname).2 ⟨stem, hstem, hpoint, rfl⟩, hknown⟩

end Remedy
