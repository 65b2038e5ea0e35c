import Mathlib
import Remedy.Proofs.Java.Walk
import Remedy.Proofs.Symbols.Growth
/-!
# Where names are used

Every reference of a file stands at a tree below its root, and its name is
what is written there, as it is or without white space
(`Reference.exists_writtenAt`). The span of a name tells which of the two it
is, so that a file uses one name at each span (`Outline.eq_of_span_eq`).
For a file that no other one follows at its path, the references of a table
are those of its outline (`SymbolTable.references_of_last`).
-/

namespace Remedy

open Java (Tree)

namespace Reference

variable {outlines : List Outline} {o : Outline} {r : Reference}

theorem mem_of_mem_distinct {refs : List Reference} (h : r ∈ distinct refs) : r ∈ refs := by
  induction refs using distinct.induct with
  | case1 a b rest hsame ih =>
    rw [distinct, if_pos hsame] at h
    rcases List.mem_cons.1 (ih h) with rfl | hrest
    · exact List.mem_cons_self
    · exact List.mem_cons_of_mem _ (List.mem_cons_of_mem _ hrest)
  | case2 a b rest hother ih =>
    rw [distinct, if_neg hother] at h
    rcases List.mem_cons.1 h with rfl | hrest
    · exact List.mem_cons_self
    · exact List.mem_cons_of_mem _ (ih hrest)
  | case3 refs hshort => rwa [distinct.eq_2 refs hshort] at h

/-- A reference is a name that the file uses, at the place of the use. -/
theorem exists_use (h : r ∈ ofOutline outlines o) :
    ∃ u ∈ o.uses, r.name = u.name ∧ r.span = u.span := by
  obtain ⟨u, hu, rfl⟩ := List.mem_map.1 (List.mem_mergeSort.1 (mem_of_mem_distinct h))
  exact ⟨u, hu, rfl, rfl⟩

end Reference

namespace Outline

variable {path : Path} {source : String} {root t : Tree} {u : NameUse}

/-- **A name is written at a tree**: a single name is the text of the tree,
and one with points is that text without white space. -/
structure WrittenAt (source : String) (t : Tree) (name : String) (span : Span) : Prop where
  span : span = t.span
  kind : t.kind ∈ Java.nameKinds ∧ name = t.text source ∨
    t.kind ∈ Java.pathKinds ∧ name = stripBlanks (t.text source)

theorem WrittenAt.name {name : String} {span : Span} (h : WrittenAt source t name span) :
    name = t.text source ∨ name = stripBlanks (t.text source) :=
  h.kind.imp And.right And.right

/-- What a call or a member access uses is written at its object, or at the
whole of it. -/
theorem writtenAt_of_objectUse? (h : objectUse? source t = some u) :
    ∃ s ∈ t.preorder, WrittenAt source s u.name u.span := by
  simp only [objectUse?, Option.bind_eq_bind, Option.bind_eq_some_iff] at h
  obtain ⟨object, hobject, h⟩ := h
  have hpart : object ∈ t.preorder :=
    Tree.mem_preorder_of_part (Tree.mem_parts_of_child? hobject) object.mem_preorder_self
  split at h
  · next hkind =>
    split at h
    · cases h
      exact ⟨object, hpart, rfl, .inl ⟨by rw [hkind]; decide, rfl⟩⟩
    · cases h
  · split at h
    · next hkind =>
      obtain ⟨field, -, h⟩ := Option.bind_eq_some_iff.1 h
      split at h
      · cases h
        exact ⟨t, t.mem_preorder_self, rfl, .inr ⟨by rw [hkind]; decide, rfl⟩⟩
      · cases h
    · cases h
  · cases h

/-- What is used at a tree is written in it. -/
theorem writtenAt_of_useAt? {parent : Option Java.Kind} (h : useAt? source parent t = some u) :
    ∃ s ∈ t.preorder, WrittenAt source s u.name u.span := by
  rw [useAt?] at h
  split at h
  · next hkind =>
    split at h
    · cases h
    · dsimp only at h
      split at h
      · cases h
      · cases h
        exact ⟨t, t.mem_preorder_self, rfl, .inl ⟨by rw [hkind]; decide, rfl⟩⟩
  · next hkind =>
    split at h
    · cases h
    · dsimp only at h
      split at h
      · cases h
      · cases h
        exact ⟨t, t.mem_preorder_self, rfl, .inr ⟨by rw [hkind]; decide, rfl⟩⟩
  · exact writtenAt_of_objectUse? h
  · exact writtenAt_of_objectUse? h
  · cases h

/-- **Every name that a file uses is written at a tree below its root.** -/
theorem writtenAt_of_mem_uses (h : u ∈ (ofTree path source root).uses) :
    ∃ s ∈ Tree.preorderParts root.parts, WrittenAt source s u.name u.span := by
  obtain ⟨c, hc, hu⟩ := List.mem_flatMap.1 h
  obtain ⟨d, hd, hu⟩ := List.mem_filterMap.1 hu
  obtain ⟨s, hs, hwritten⟩ := writtenAt_of_useAt? hu
  have hchild : c.focus ∈ root.children :=
    Java.foci_children (.ofTree root) ▸ List.mem_map_of_mem (List.mem_of_mem_filter hc)
  have hbelow : d.focus ∈ c.focus.preorder :=
    Java.foci_descendants c ▸ List.mem_map_of_mem hd
  obtain ⟨part, hpart, hfocus⟩ := List.mem_map.1 hchild
  exact ⟨s, Tree.mem_preorderParts.2 ⟨part, hpart, hfocus ▸ Tree.preorder_trans hs hbelow⟩,
    hwritten⟩

/-- **A file uses one name at each span.** A single name and one with points
have different spans, and of each sort the text at the span is the name. -/
theorem eq_of_span_eq {v : NameUse} (hregular : root.Regular source)
    (hu : u ∈ (ofTree path source root).uses) (hv : v ∈ (ofTree path source root).uses)
    (hspan : u.span = v.span) : u = v := by
  obtain ⟨s, hs, hswritten⟩ := writtenAt_of_mem_uses hu
  obtain ⟨t, ht, htwritten⟩ := writtenAt_of_mem_uses hv
  have hsame : s.span = t.span := hswritten.span.symm.trans (hspan.trans htwritten.span)
  have htext : s.text source = t.text source := by rw [Tree.text, Tree.text, hsame]
  have hname : u.name = v.name := by
    rcases hswritten.kind with ⟨hskind, hsname⟩ | ⟨hskind, hsname⟩ <;>
      rcases htwritten.kind with ⟨htkind, htname⟩ | ⟨htkind, htname⟩
    · rw [hsname, htname, htext]
    · exact absurd hsame (hregular.names s hs t ht hskind htkind)
    · exact absurd hsame.symm (hregular.names t ht s hs htkind hskind)
    · rw [hsname, htname, htext]
  cases u
  cases v
  cases hname
  cases hspan
  rfl

end Outline

/-- **A reference is written at a tree below the root of its file.** -/
theorem Reference.exists_writtenAt {outlines : List Outline} {path : Path} {source : String}
    {root : Tree} {r : Reference} (h : r ∈ ofOutline outlines (Outline.ofTree path source root)) :
    ∃ s ∈ Tree.preorderParts root.parts, Outline.WrittenAt source s r.name r.span := by
  obtain ⟨u, hu, hname, hspan⟩ := exists_use h
  rw [hname, hspan]
  exact Outline.writtenAt_of_mem_uses hu

namespace SymbolTable

variable {before after : List SourceUnit} {file : SourceUnit} {o : Outline}

/-- **The references of a file** that no other one follows at its path are
those of its outline. -/
theorem references_of_last (hlast : ∀ u ∈ after, u.tree?.isSome → ¬ u.path.same file.path)
    (ho : outline? file = some o) :
    (build (before ++ file :: after)).references file.path =
      Reference.ofOutline (outlines (before ++ file :: after)) o := by
  rw [references_build, getLast?_filter_outlines hlast ho, Option.map_some, Option.getD_some]

end SymbolTable

end Remedy
