import Mathlib
import Remedy.Proofs.Path.Canonical
/-!
# Joined paths

The components of a path that was joined to another one are read off the
components of both (`Path.components_join`), so what joined paths name does
not depend on how they are written. Names that stand behind a path stay
behind it wherever the path itself starts (`Path.resolve_append_names`).
The components that a path starts with can be written out and read back
(`Path.components_ofComponents_of_prefix`).
-/

namespace Remedy

namespace Path

variable {p q base : Path} {c : PathComponent} {part first chars chars' : List Char}
  {parts : List PathComponent} {pieces rest : List (List Char)} {names : List String}

/-! ## Parts of a text -/

theorem splitAt_ne_nil (chars : List Char) : splitAt '/' chars ≠ [] := by
  cases chars with
  | nil => exact List.cons_ne_nil _ _
  | cons c cs =>
    rw [splitAt]
    split
    · exact List.cons_ne_nil _ _
    · split <;> exact List.cons_ne_nil _ _

/-- Two texts with a slash between them come apart there. -/
theorem splitAt_append_slash (chars chars' : List Char) :
    splitAt '/' (chars ++ '/' :: chars') = splitAt '/' chars ++ splitAt '/' chars' := by
  induction chars with
  | nil => exact if_pos rfl
  | cons c chars ih =>
    rw [List.cons_append, splitAt, splitAt]
    by_cases hc : c = '/'
    · rw [if_pos hc, if_pos hc, ih, List.cons_append]
    · rw [if_neg hc, if_neg hc, ih]
      obtain ⟨first, others, hsplit⟩ := List.exists_cons_of_ne_nil (splitAt_ne_nil chars)
      rw [hsplit]
      rfl

/-- Past the start, a part is a name or the directory above. -/
theorem component?_eq_some (h : component? part = some c) : c ≠ .root ∧ c ≠ .current := by
  rw [component?] at h
  split at h
  · cases h
  · split at h <;> cases h <;> simp

/-- The components of the first part of a text. -/
def start (absolute : Bool) (first : List Char) : List PathComponent :=
  if absolute then [.root]
  else if first = ['.'] then [.current]
  else (component? first).toList

theorem components_of_splitAt (h : splitAt '/' p.text.toList = first :: rest) :
    p.components = start p.isAbsolute first ++ rest.filterMap component? := by
  rw [components, h, start]
  simp only
  split
  · rfl
  · split <;> rfl

/-- A path that does not start at the root is made of its parts, but for a
point at the start. -/
theorem filter_components (h : p.isAbsolute = false) :
    p.components.filter (· ≠ .current) = (splitAt '/' p.text.toList).filterMap component? := by
  have hkept : ∀ pieces : List (List Char),
      (pieces.filterMap component?).filter (· ≠ .current) = pieces.filterMap component? := by
    intro pieces
    refine List.filter_eq_self.2 fun c hc => ?_
    obtain ⟨part, -, hpart⟩ := List.mem_filterMap.1 hc
    exact decide_eq_true (component?_eq_some hpart).2
  obtain ⟨first, rest, hsplit⟩ := List.exists_cons_of_ne_nil (splitAt_ne_nil p.text.toList)
  have hfirst : (start false first).filter (· ≠ .current) = [first].filterMap component? := by
    rw [start, if_neg Bool.false_ne_true]
    split
    case isTrue hpoint =>
      rw [hpoint]
      rfl
    case isFalse =>
      rw [← hkept [first], List.filterMap_cons, List.filterMap_nil]
      cases component? first <;> rfl
  rw [components_of_splitAt hsplit, h, List.filter_append, hkept, hfirst, hsplit,
    ← List.filterMap_append, List.singleton_append]

/-- A path starts at the root just if the root is its first component. -/
theorem isAbsolute_iff : p.isAbsolute = true ↔ p.components.head? = some .root := by
  obtain ⟨first, rest, hsplit⟩ := List.exists_cons_of_ne_nil (splitAt_ne_nil p.text.toList)
  rw [components_of_splitAt hsplit]
  constructor
  · intro h
    rw [h]
    rfl
  · intro h
    by_contra hrelative
    have hfalse := Bool.eq_false_iff.2 hrelative
    have hroot : PathComponent.root ∈ p.components.filter (· ≠ .current) := by
      rw [components_of_splitAt hsplit]
      exact List.mem_filter.2 ⟨List.mem_of_head? h, rfl⟩
    rw [filter_components hfalse] at hroot
    obtain ⟨part, -, hpart⟩ := List.mem_filterMap.1 hroot
    exact (component?_eq_some hpart).1 rfl

/-! ## Joining -/

/-- What components lead to behind a path. -/
def resolve (base : Path) (parts : List PathComponent) : List PathComponent :=
  if parts.head? = some .root ∨ base.text = "" then parts
  else base.components ++ parts.filter (· ≠ .current)

/-- What parts add to the components of a text that they follow. -/
theorem components_of_append {blank : List (List Char)} (hne : pieces ≠ [])
    (habsolute : q.isAbsolute = p.isAbsolute) (hblank : blank.filterMap component? = [])
    (hp : splitAt '/' p.text.toList = pieces ++ blank)
    (hq : splitAt '/' q.text.toList = pieces ++ rest) :
    q.components = p.components ++ rest.filterMap component? := by
  obtain ⟨first, others, rfl⟩ := List.exists_cons_of_ne_nil hne
  rw [List.cons_append] at hp hq
  rw [components_of_splitAt hp, components_of_splitAt hq, habsolute, List.filterMap_append,
    List.filterMap_append, hblank, List.append_nil, List.append_assoc]

/-- **The components of a joined path.** -/
theorem components_join (base q : Path) : (base.join q).components = base.resolve q.components := by
  rw [join, resolve]
  by_cases hq : q.isAbsolute
  · rw [if_pos hq, if_pos (.inl (isAbsolute_iff.1 hq))]
  rw [if_neg hq]
  have hhead : q.components.head? ≠ some .root := fun h => hq (isAbsolute_iff.2 h)
  by_cases hempty : base.text = ""
  · have hnothing : base.text.isEmpty = true := String.isEmpty_iff.2 hempty
    rw [if_pos (Or.inl hnothing)]
    rw [if_pos (Or.inr hempty), hempty, String.empty_append]
  rw [if_neg (not_or.2 ⟨hhead, hempty⟩), filter_components (Bool.eq_false_iff.2 hq)]
  obtain ⟨c, cs, hbase⟩ := List.exists_cons_of_ne_nil fun h => hempty (String.toList_eq_nil_iff.1 h)
  have habsolute : ∀ text : String, (⟨base.text ++ text⟩ : Path).isAbsolute = base.isAbsolute := by
    intro text
    rw [isAbsolute, isAbsolute, String.toList_append, hbase]
    rfl
  by_cases hslash : base.text.toList.getLast? = some '/'
  · obtain ⟨chars, hchars⟩ := List.getLast?_eq_some_iff.1 hslash
    rw [if_pos (.inr hslash)]
    refine components_of_append (splitAt_ne_nil chars) (habsolute q.text)
      (show [[]].filterMap component? = [] from rfl) ?_ ?_
    · rw [hchars, splitAt_append_slash]
      rfl
    · rw [String.toList_append, hchars, List.append_assoc, List.singleton_append,
        splitAt_append_slash]
  · rw [if_neg (not_or.2 ⟨fun h => hempty (String.isEmpty_iff.1 h), hslash⟩)]
    refine components_of_append (splitAt_ne_nil base.text.toList) ?_ List.filterMap_nil
      (List.append_nil _).symm ?_
    · rw [String.append_assoc]
      exact habsolute _
    · rw [String.append_assoc, String.toList_append, String.toList_append]
      exact splitAt_append_slash _ _

theorem resolve_nil (base : Path) : base.resolve [] = base.components := by
  rw [resolve]
  split
  case isTrue h =>
    rcases h with h | h
    · cases h
    · have hbase : base = ⟨""⟩ := congrArg Path.mk h
      rw [hbase]
      rfl
  case isFalse => exact List.append_nil _

/-- No name is a point. -/
theorem filter_names (names : List String) :
    (names.map PathComponent.name).filter (· ≠ .current) = names.map .name := by
  refine List.filter_eq_self.2 fun c hc => ?_
  obtain ⟨name, -, rfl⟩ := List.mem_map.1 hc
  rfl

/-- **Names stay behind what they stand behind.** -/
theorem resolve_append_names (base : Path) (parts : List PathComponent) (names : List String) :
    base.resolve (parts ++ names.map .name) = base.resolve parts ++ names.map .name := by
  cases parts with
  | nil =>
    have hhead : (names.map PathComponent.name).head? ≠ some .root := by
      cases names <;> nofun
    rw [resolve_nil, List.nil_append, resolve, filter_names]
    by_cases hempty : base.text = ""
    · have hbase : base = ⟨""⟩ := congrArg Path.mk hempty
      rw [if_pos (.inr hempty), hbase]
      rfl
    · rw [if_neg (not_or.2 ⟨hhead, hempty⟩)]
  | cons c parts =>
    rw [resolve, resolve, List.filter_append, filter_names, ← List.append_assoc, List.cons_append,
      List.head?_cons, List.head?_cons]
    by_cases hstart : some c = some .root ∨ base.text = ""
    · rw [if_pos hstart, if_pos hstart, List.cons_append]
    · rw [if_neg hstart, if_neg hstart]

/-- A path of names behind another path. -/
theorem components_join_names (base : Path) (h : p.components = names.map .name) :
    (base.join p).components = base.components ++ names.map .name := by
  rw [components_join, h, ← List.nil_append (names.map PathComponent.name), resolve_append_names,
    resolve_nil, List.nil_append]

/-- A joined path ends as the path that was joined. -/
theorem exists_text_join (base q : Path) :
    ∃ ahead, (base.join q).text.toList = ahead ++ q.text.toList := by
  rw [join]
  split
  · exact ⟨[], rfl⟩
  · split
    · exact ⟨base.text.toList, String.toList_append⟩
    · exact ⟨(base.text ++ "/").toList, String.toList_append⟩

/-! ## Reading back -/

/-- Plain components behind a point at the start are read back. -/
theorem components_ofComponents_current (hplain : ∀ c ∈ parts, c.Plain) :
    (ofComponents (.current :: parts)).components = .current :: parts := by
  have hslash : "/".toList = ['/'] := rfl
  have hwritten : ofComponents (.current :: parts) =
      ⟨"/".intercalate ((PathComponent.current :: parts).map PathComponent.text)⟩ := rfl
  have hsplit : splitAt '/' (ofComponents (.current :: parts)).text.toList =
      ['.'] :: parts.map fun c => c.text.toList := by
    rw [hwritten, String.toList_intercalate, hslash, List.map_map]
    refine splitAt_intercalate (List.cons_ne_nil _ _) (List.forall_mem_cons.2 ⟨by decide, ?_⟩)
    intro part hpart
    obtain ⟨c, hc, rfl⟩ := List.mem_map.1 hpart
    exact (hplain c hc).2
  have hsome : ∀ c ∈ parts, (component? ∘ fun c => c.text.toList) c = some c :=
    fun c hc => (hplain c hc).1
  have hrelative : (ofComponents (.current :: parts)).isAbsolute = false := by
    rw [isAbsolute, hwritten, String.toList_intercalate]
    cases parts <;> rfl
  rw [components_of_splitAt hsplit, hrelative, List.filterMap_map, List.filterMap_congr hsome,
    List.filterMap_some]
  rfl

/-- **The components that a path starts with** can be written out and read
back. -/
theorem components_ofComponents_of_prefix (h : parts <+: p.components) :
    (ofComponents parts).components = parts := by
  obtain ⟨head, tail, hcomponents, hhead, hplain⟩ := exists_components p
  rw [hcomponents] at h
  rcases hhead with rfl | rfl | rfl
  · exact components_ofComponents (.relative parts fun c hc => hplain c (h.subset hc))
  · cases parts with
    | nil => rfl
    | cons c parts =>
      obtain ⟨rfl, hparts⟩ := List.cons_prefix_cons.1 h
      exact components_ofComponents (.absolute parts fun c hc => hplain c (hparts.subset hc))
  · cases parts with
    | nil => rfl
    | cons c parts =>
      obtain ⟨rfl, hparts⟩ := List.cons_prefix_cons.1 h
      exact components_ofComponents_current fun c hc => hplain c (hparts.subset hc)

end Path

end Remedy
