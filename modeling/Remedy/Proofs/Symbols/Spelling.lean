import Mathlib
import Remedy.Proofs.Symbols.Innermost
/-!
# How a type is written

A name without points that stands for a type is the last part of its full
name (`Resolution.lastName_of_ofSimple`). So where the packages of a type
start with small letters there are two ways to write the type in a file: by
its full name and by the last part of it (`Resolution.eq_or_eq_of_ofName`).
-/

namespace Remedy

namespace Outline

open Java (Tree)

variable {above name : String}

/-- What stands behind the last point is the whole of a name without
points, -/
theorem lastName_eq_self (h : '.' ∉ name.toList) : lastName name = name := by
  have hall : name.toList.reverse.takeWhile (· ≠ '.') = name.toList.reverse := by
    rw [List.takeWhile_eq_self_iff]
    intro c hc
    exact decide_eq_true fun heq => h (heq ▸ List.mem_reverse.1 hc)
  rw [lastName, hall, List.reverse_reverse, String.ofList_toList]

/-- and so it is below another name. -/
theorem lastName_joinNames (h : '.' ∉ name.toList) : lastName (joinNames above name) = name := by
  rw [joinNames]
  split
  · exact lastName_eq_self h
  · have hall : ∀ c ∈ name.toList.reverse, decide (c ≠ '.') = true := by
      intro c hc
      exact decide_eq_true fun heq => h (heq ▸ List.mem_reverse.1 hc)
    have hpoint : ".".toList = ['.'] := rfl
    rw [lastName, String.toList_append, String.toList_append, List.reverse_append,
      List.reverse_append, hpoint, List.takeWhile_append_of_pos hall, List.reverse_singleton,
      List.singleton_append, List.takeWhile_cons_of_neg (by decide), List.append_nil,
      List.reverse_reverse, String.ofList_toList]

/-- A single import brings in a type by its last name. -/
theorem lastName_of_mem_imports {path : Path} {source simple fullName : String} {root : Tree}
    (h : .single simple fullName ∈ (ofTree path source root).imports) :
    lastName fullName = simple := by
  obtain ⟨t, -, ht⟩ := List.mem_filterMap.1 h
  simp only [importOf?, Option.bind_eq_bind, Option.bind_eq_some_iff] at ht
  obtain ⟨name, -, ht⟩ := ht
  split at ht
  · cases ht
  · split at ht
    · cases ht
    · cases ht
      rfl

end Outline

namespace Resolution

open Java (Tree)
open Outline (lastName ofTree)

variable {outlines : List Outline} {path : Path} {source name fullName : String} {root : Tree}
variable {place : Span}

/-- **A name without points is the last part of the type that it stands
for.** -/
theorem lastName_of_ofSimple (hnamed : ∀ o ∈ outlines, o.WellNamed) (hname : '.' ∉ name.toList)
    (h : ofSimple outlines (ofTree path source root) name place = .type fullName) :
    lastName fullName = name := by
  rw [ofSimple_eq, own?] at h
  split at h
  · cases h
  · cases hlocal : localType? (ofTree path source root) name place with
    | some d =>
      rw [hlocal] at h
      cases h
      rw [localType?_eq_argmin] at hlocal
      rcases cases_of_mem_visible (List.argmin_mem hlocal) with
        ⟨_, _, hfull, _⟩ | ⟨_, _, _, hfull, _⟩ <;>
      · rw [hfull]
        exact Outline.lastName_joinNames hname
    | none =>
      rw [hlocal, Option.map_none, Option.none_or] at h
      cases himported : (ofTree path source root).imported? name with
      | some imported =>
        rw [himported] at h
        cases h
        obtain ⟨i, hi, hsingle⟩ := List.exists_of_findSome?_eq_some himported
        split at hsingle
        · split at hsingle
          · next hsimple =>
            cases hsingle
            rw [Outline.lastName_of_mem_imports hi, hsimple]
          · cases hsingle
        · cases hsingle
      | none =>
        rw [himported, Option.map_none, Option.getD_none, ofProject] at h
        split at h
        · next htop =>
          cases h
          rw [((topLevel?_eq_some_iff hnamed).1 htop).2]
          exact Outline.lastName_joinNames hname
        · rw [ofCandidates.eq_def] at h
          split at h
          · cases h
          · next hone =>
            cases h
            obtain ⟨package, -, -, hfull⟩ := mem_candidates.1 (hone ▸ List.mem_singleton_self _)
            rw [hfull]
            exact Outline.lastName_joinNames hname
          · cases h

theorem notMem_firstPart : '.' ∉ (firstPart name).toList := by
  rw [firstPart, String.toList_ofList]
  intro hmem
  have hne := List.mem_takeWhile_imp hmem
  exact absurd rfl (of_decide_eq_true hne)

/-- What follows the first part of a name starts with a point. -/
theorem head?_laterPart (h : laterPart name ≠ "") :
    (laterPart name).toList.head? = some '.' := by
  have hne := mt laterPart_eq_empty_iff.2 h
  rw [laterPart, String.toList_ofList, List.head?_eq_some_head hne, Option.some.injEq]
  exact not_not.1 (of_decide_eq_false (List.head_dropWhile_not _ hne))

/-- The packages in a full name start with small letters. -/
def Packaged (fullName : String) : Prop :=
  ∀ n < fullName.toList.length, (fullName.toList.drop n).head? = some '.' →
    (lastName (.ofList (fullName.toList.take n))).toList.head?.any Char.isLower

instance (fullName : String) : Decidable (Packaged fullName) :=
  inferInstanceAs (Decidable (∀ n < fullName.toList.length, _ → _))

/-- **There are two ways to write a type**: its full name, and the last part
of it. -/
theorem eq_or_eq_of_ofName (hnamed : ∀ o ∈ outlines, o.WellNamed) (hpackaged : Packaged fullName)
    (h : ofName outlines (ofTree path source root) name place = .type fullName) :
    name = fullName ∨ name = lastName fullName := by
  rw [ofName_eq] at h
  split at h
  case isTrue hlater =>
    refine .inr (lastName_of_ofSimple hnamed ?_ h).symm
    rw [laterPart_eq_empty_iff, List.dropWhile_eq_nil_iff] at hlater
    exact fun hpoint => absurd rfl (of_decide_eq_true (hlater '.' hpoint))
  case isFalse hlater =>
    split at h
    case isTrue => exact .inl (Resolution.type.inj h)
    case isFalse hcapital =>
      exfalso
      cases hfirst : ofSimple outlines (ofTree path source root) (firstPart name) place with
      | typeParameter | gap =>
        rw [hfirst] at h
        cases h
      | type first =>
        rw [hfirst, extend, Resolution.type.injEq] at h
        have hlast := lastName_of_ofSimple hnamed notMem_firstPart hfirst
        have hnext := head?_laterPart hlater
        have htext : fullName.toList = first.toList ++ (laterPart name).toList := by
          rw [← h, String.toList_append]
        have hsmall := hpackaged first.toList.length (by
          rw [htext, List.length_append]
          cases hcs : (laterPart name).toList with
          | nil => rw [hcs] at hnext; cases hnext
          | cons c cs => simp) (by rw [htext, List.drop_left]; exact hnext)
        rw [htext, List.take_left, String.ofList_toList, hlast] at hsmall
        exact hcapital hsmall

end Resolution

end Remedy
