import Mathlib
import Remedy.Findings.ReportPath
/-!
# Canonical paths

Many texts name one place. A path is canonical if it is written from its
components, and two canonical paths that name the same place are one
(`Path.eq_of_components_eq`). The paths that reports mean are canonical
(`ReportPath.canonical_normalize`): components that are written out can be
read back (`Path.components_ofComponents`), as none of them has a slash in it
and none is empty or a lone point.
-/

namespace Remedy

/-! ## Components -/

/-- A component that stands behind a slash as it stands at the start: a name
or the directory above. -/
def PathComponent.Plain (c : PathComponent) : Prop :=
  Path.component? c.text.toList = some c ∧ '/' ∉ c.text.toList

namespace Path

variable {p q : Path} {c : PathComponent} {part : List Char} {parts rest base : List PathComponent}

/-- **Components as a path has them**: all of them are plain, but for the
root at the start. -/
inductive Written : List PathComponent → Prop where
  | relative (parts : List PathComponent) (hplain : ∀ c ∈ parts, c.Plain) : Written parts
  | absolute (rest : List PathComponent) (hplain : ∀ c ∈ rest, c.Plain) : Written (.root :: rest)

theorem plain_of_component? (hslash : '/' ∉ part) (h : component? part = some c) : c.Plain := by
  rw [component?] at h
  split at h
  case isTrue => cases h
  case isFalse hname =>
    split at h
    case isTrue => cases h; exact ⟨by decide, by decide⟩
    case isFalse hparent =>
      cases h
      refine ⟨?_, by rwa [PathComponent.text, String.toList_ofList]⟩
      rw [PathComponent.text, String.toList_ofList, component?, if_neg hname, if_neg hparent]

/-! ## Dividing at slashes -/

theorem splitAt_of_not_mem (h : '/' ∉ part) : splitAt '/' part = [part] := by
  induction part with
  | nil => rfl
  | cons c part ih =>
    rw [List.mem_cons, not_or] at h
    rw [splitAt, if_neg (Ne.symm h.1), ih h.2]

theorem splitAt_append (h : '/' ∉ part) (chars : List Char) :
    splitAt '/' (part ++ '/' :: chars) = part :: splitAt '/' chars := by
  induction part with
  | nil => rw [List.nil_append, splitAt, if_pos rfl]
  | cons c part ih =>
    rw [List.mem_cons, not_or] at h
    rw [List.cons_append, splitAt, if_neg (Ne.symm h.1), ih h.2]

/-- Parts that are put together with slashes come apart at the slashes. -/
theorem splitAt_intercalate {pieces : List (List Char)} (hne : pieces ≠ [])
    (h : ∀ part ∈ pieces, '/' ∉ part) : splitAt '/' (['/'].intercalate pieces) = pieces := by
  induction pieces with
  | nil => exact absurd rfl hne
  | cons part pieces ih =>
    have hpart := h part List.mem_cons_self
    by_cases hlast : pieces = []
    · rw [hlast, List.intercalate_singleton, splitAt_of_not_mem hpart]
    · rw [List.intercalate_cons_of_ne_nil hlast, List.append_assoc, List.singleton_append,
        splitAt_append hpart, ih hlast fun q hq => h q (List.mem_cons_of_mem _ hq)]

/-- No part has a slash in it. -/
theorem not_mem_of_mem_splitAt {chars : List Char} : ∀ part ∈ splitAt '/' chars, '/' ∉ part := by
  induction chars with
  | nil => exact fun part hpart => by rw [List.mem_singleton.1 hpart]; exact List.not_mem_nil
  | cons c chars ih =>
    rw [splitAt]
    split
    case isTrue =>
      intro part hpart
      rcases List.mem_cons.1 hpart with rfl | hmem
      · exact List.not_mem_nil
      · exact ih part hmem
    case isFalse hc =>
      have hcons : ∀ first : List Char, '/' ∉ first → '/' ∉ c :: first := fun first hfirst hmem =>
        (List.mem_cons.1 hmem).elim (fun h => hc h.symm) hfirst
      cases hsplit : splitAt '/' chars with
      | nil =>
        intro part hpart
        rw [List.mem_singleton.1 hpart]
        exact hcons [] List.not_mem_nil
      | cons first others =>
        rw [hsplit] at ih
        intro part hpart
        rcases List.mem_cons.1 hpart with rfl | hmem
        · exact hcons first (ih first List.mem_cons_self)
        · exact ih part (List.mem_cons_of_mem _ hmem)

/-! ## Reading back -/

/-- Plain components come apart at the slashes. -/
theorem splitAt_text (hne : parts ≠ []) (hplain : ∀ c ∈ parts, c.Plain) :
    splitAt '/' ("/".intercalate (parts.map PathComponent.text)).toList =
      parts.map fun c => c.text.toList := by
  have hslash : "/".toList = ['/'] := rfl
  rw [String.toList_intercalate, hslash, List.map_map]
  refine splitAt_intercalate (by simpa using hne) ?_
  intro part hpart
  obtain ⟨c, hc, rfl⟩ := List.mem_map.1 hpart
  exact (hplain c hc).2

/-- What stands between the slashes of written components is what they are. -/
theorem filterMap_splitAt_text (hplain : ∀ c ∈ parts, c.Plain) :
    (splitAt '/' ("/".intercalate (parts.map PathComponent.text)).toList).filterMap component? =
      parts := by
  by_cases hempty : parts = []
  · rw [hempty]
    decide
  · have hsome : ∀ c ∈ parts, (component? ∘ fun c => c.text.toList) c = some c :=
      fun c hc => (hplain c hc).1
    rw [splitAt_text hempty hplain, List.filterMap_map, List.filterMap_congr hsome,
      List.filterMap_some]

/-- Plain components are written out from the first one on. -/
theorem ofComponents_of_plain (hplain : ∀ c ∈ parts, c.Plain) :
    ofComponents parts = ⟨"/".intercalate (parts.map PathComponent.text)⟩ := by
  cases parts with
  | nil => rfl
  | cons c rest =>
    cases c with
    | root => exact absurd (List.mem_singleton_self '/') (hplain .root List.mem_cons_self).2
    | current | parent | name => rfl

/-- **Components that are written out are read back.** -/
theorem components_ofComponents (h : Written parts) : (ofComponents parts).components = parts := by
  cases h with
  | absolute rest hplain =>
    have htext : ("/" ++ "/".intercalate (rest.map PathComponent.text)).toList =
        '/' :: ("/".intercalate (rest.map PathComponent.text)).toList := by
      rw [String.toList_append]
      rfl
    have habsolute : (ofComponents (.root :: rest)).isAbsolute := by
      rw [ofComponents, isAbsolute, htext]
      exact beq_self_eq_true _
    have hsplit : splitAt '/' (ofComponents (.root :: rest)).text.toList =
        [] :: splitAt '/' ("/".intercalate (rest.map PathComponent.text)).toList := by
      rw [ofComponents, htext, splitAt, if_pos rfl]
    rw [components, hsplit]
    simp only [habsolute, if_true, filterMap_splitAt_text hplain]
  | relative parts hplain =>
    cases parts with
    | nil => decide
    | cons c rest =>
      have hall := filterMap_splitAt_text hplain
      have hsplit := splitAt_text (List.cons_ne_nil c rest) hplain
      obtain ⟨hc, -⟩ := hplain c List.mem_cons_self
      rw [ofComponents_of_plain hplain, components]
      rw [hsplit, List.map_cons] at hall ⊢
      have hrelative : ¬ isAbsolute ⟨"/".intercalate ((c :: rest).map PathComponent.text)⟩ := by
        -- a slash at the start would leave an empty part ahead of it
        intro habsolute
        rw [isAbsolute, beq_iff_eq] at habsolute
        obtain ⟨chars, hchars⟩ := List.head?_eq_some_iff.1 habsolute
        rw [hchars, splitAt, if_pos rfl, List.map_cons] at hsplit
        rw [← (List.cons.inj hsplit).1] at hc
        cases hc
      have hpoint : c.text.toList ≠ ['.'] := by
        intro hpoint
        rw [hpoint] at hc
        cases hc
      simp only [hrelative, hpoint, if_false, Bool.false_eq_true]
      rw [List.filterMap_cons_some hc] at hall
      rw [hc]
      exact hall

/-! ## Paths -/

/-- **A canonical path** is written from its components. -/
def Canonical (p : Path) : Prop := ofComponents p.components = p

theorem canonical_ofComponents (h : Written parts) : (ofComponents parts).Canonical := by
  rw [Canonical, components_ofComponents h]

/-- **Canonical paths that name the same place are one.** -/
theorem eq_of_components_eq (hp : p.Canonical) (hq : q.Canonical)
    (h : p.components = q.components) : p = q := by
  rw [← hp, h, hq]

/-- The components of a path are plain past the start. -/
theorem exists_components (p : Path) : ∃ head tail, p.components = head ++ tail ∧
    (head = [] ∨ head = [.root] ∨ head = [.current]) ∧ ∀ c ∈ tail, c.Plain := by
  have hplain : ∀ pieces : List (List Char), (∀ part ∈ pieces, '/' ∉ part) →
      ∀ c ∈ pieces.filterMap component?, c.Plain := by
    intro pieces hslash c hc
    obtain ⟨part, hpart, hsome⟩ := List.mem_filterMap.1 hc
    exact plain_of_component? (hslash part hpart) hsome
  have hslash := @not_mem_of_mem_splitAt p.text.toList
  rw [components]
  cases hsplit : splitAt '/' p.text.toList with
  | nil => exact ⟨[], [], rfl, Or.inl rfl, fun c hc => by cases hc⟩
  | cons first others =>
    rw [hsplit] at hslash
    have hothers := hplain others fun part hpart => hslash part (List.mem_cons_of_mem _ hpart)
    simp only
    split
    case isTrue => exact ⟨[.root], _, rfl, Or.inr (Or.inl rfl), hothers⟩
    case isFalse =>
      split
      case isTrue => exact ⟨[.current], _, rfl, Or.inr (Or.inr rfl), hothers⟩
      case isFalse =>
        refine ⟨[], _, rfl, Or.inl rfl, fun c hc => ?_⟩
        rcases List.mem_append.1 hc with hfirst | hmem
        · have hsome := Option.mem_toList.1 hfirst
          exact plain_of_component? (hslash first List.mem_cons_self) hsome
        · exact hothers c hmem

/-- **What is left of the components of a path** behind some of them, without
any `.`, is as a path has it. -/
theorem written_filter (h : p.components = base ++ rest) :
    Written (rest.filter (· ≠ .current)) := by
  have hrelative : ∀ parts : List PathComponent, (∀ c ∈ parts, c.Plain) →
      ∀ c ∈ parts.filter (· ≠ .current), c.Plain :=
    fun parts hplain c hc => hplain c (List.mem_of_mem_filter hc)
  obtain ⟨head, tail, hcomponents, hhead, hplain⟩ := exists_components p
  rw [hcomponents] at h
  cases base with
  | cons b base =>
    -- the first component is not among those that are left
    refine .relative _ (hrelative _ fun c hc => hplain c ?_)
    have hbehind : c ∈ (head ++ tail).tail := by
      rw [h]
      exact List.mem_append_right _ hc
    rcases hhead with rfl | rfl | rfl
    · exact List.mem_of_mem_tail hbehind
    · exact hbehind
    · exact hbehind
  | nil =>
    rw [List.nil_append] at h
    rw [← h]
    rcases hhead with rfl | rfl | rfl
    · exact .relative _ (hrelative tail hplain)
    · exact .absolute _ (hrelative tail hplain)
    · exact .relative _ (hrelative tail hplain)

theorem eq_append_of_stripComponents? :
    ∀ {base parts rest : List PathComponent}, stripComponents? base parts = some rest →
      parts = base ++ rest
  | [], parts, rest, h => by
    rw [stripComponents?] at h
    exact Option.some.inj h
  | b :: base, c :: parts, rest, h => by
    rw [stripComponents?] at h
    split at h
    case isTrue hsame => rw [hsame, eq_append_of_stripComponents? h, List.cons_append]
    case isFalse => cases h
  | _ :: _, [], _, h => by
    rw [stripComponents?] at h
    cases h

/-- What a report leaves of the components of a path is their end. -/
theorem exists_ahead (p root : Path) : ∃ base, p.components =
    base ++ if p.isAbsolute then (p.under? root).getD p.components else p.components := by
  split
  case isFalse => exact ⟨[], rfl⟩
  case isTrue =>
    cases hunder : p.under? root with
    | none => exact ⟨[], rfl⟩
    | some below => exact ⟨root.components, eq_append_of_stripComponents? hunder⟩

end Path

/-- **The path that a report means is canonical.** -/
theorem ReportPath.canonical_normalize (raw : String) (root : Path) :
    (normalize raw root).Canonical := by
  obtain ⟨base, hahead⟩ := Path.exists_ahead ⟨decode (withoutScheme (Text.trim raw))⟩ root
  exact Path.canonical_ofComponents (Path.written_filter hahead)

end Remedy
