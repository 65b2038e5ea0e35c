import Mathlib
import Remedy.Findings.Finding
import Remedy.Proofs.Order
import Remedy.Proofs.Path.Canonical
/-!
# Findings without repetition

Of findings that are the same one is kept, and which one depends on the order
in which they came. They are the same in all but severity, message and
metadata, though (`Finding.Genuine.bare_eq`), so but for these it is no
matter: the findings that are kept are told by the set of those that came
(`Finding.map_bare_deduplicate_congr`). This takes genuine findings, whose
ids and paths are made as reports make them.
-/

namespace Remedy

open Std

/-! ## Comparisons -/

/-- Components are ordered by kind, and then by text. -/
theorem PathComponent.order_eq_compareLex :
    order = compareLex (compareOn rank) (compareOn text) := by
  funext a b
  cases a <;> cases b <;> rfl

instance : TransCmp PathComponent.order := by
  rw [PathComponent.order_eq_compareLex]
  infer_instance

instance : LawfulEqCmp PathComponent.order where
  eq_of_compare := by
    intro a b h
    rw [PathComponent.order_eq_compareLex] at h
    obtain ⟨hrank, htext⟩ := Ordering.then_eq_eq.1 h
    have hrank : a.rank = b.rank := LawfulEqOrd.eq_of_compare hrank
    have htext : a.text = b.text := LawfulEqOrd.eq_of_compare htext
    cases a <;> cases b <;> first | rfl | exact congrArg _ htext | cases hrank

theorem Path.orderComponents_eq_compareLex :
    orderComponents = List.compareLex PathComponent.order := by
  funext as bs
  induction as generalizing bs with
  | nil => cases bs <;> rfl
  | cons a as ih =>
    cases bs with
    | nil => rfl
    | cons b bs => rw [orderComponents, ih, List.compareLex_cons_cons]

instance : TransCmp Path.orderComponents := by
  rw [Path.orderComponents_eq_compareLex]
  infer_instance

instance : TransCmp Path.order := transCmp_on Path.orderComponents Path.components

/-- Paths that are as one to the order name the same place. -/
theorem Path.components_eq_of_order {p q : Path} (h : p.order q = .eq) :
    p.components = q.components := by
  rw [order, orderComponents_eq_compareLex] at h
  exact LawfulEqCmp.eq_of_compare h

instance : LawfulEqCmp Span.order where
  eq_of_compare := by
    rintro ⟨start, stop⟩ ⟨start', stop'⟩ h
    obtain ⟨hstart, hstop⟩ := Ordering.then_eq_eq.1 h
    exact congrArg₂ Span.mk (Nat.compare_eq_eq.1 hstart) (Nat.compare_eq_eq.1 hstop)

instance : LawfulEqCmp Position.order where
  eq_of_compare := by
    rintro ⟨line, column⟩ ⟨line', column'⟩ h
    obtain ⟨hline, hcolumn⟩ := Ordering.then_eq_eq.1 h
    exact congrArg₂ Position.mk (Nat.compare_eq_eq.1 hline) (Nat.compare_eq_eq.1 hcolumn)

instance : TransCmp ColumnUnit.order where
  eq_swap := fun {a b} => by cases a <;> cases b <;> rfl
  isLE_trans := fun {a b c} => by cases a <;> cases b <;> cases c <;> decide

instance : LawfulEqCmp ColumnUnit.order where
  eq_of_compare := fun {a b} => by cases a <;> cases b <;> decide

instance {α : Type} {cmp : α → α → Ordering} [TransCmp cmp] [LawfulEqCmp cmp] :
    LawfulEqCmp (Location.orderOptional cmp) where
  eq_of_compare := by
    intro a b h
    cases a with
    | none =>
      cases b with
      | none => rfl
      | some b => cases h
    | some a =>
      cases b with
      | none => cases h
      | some b => exact congrArg some (@LawfulEqCmp.eq_of_compare _ cmp _ a b h)

instance : TransCmp Location.order :=
  have := transCmp_on Position.order Location.start
  have := transCmp_on Position.order Location.stop
  have := transCmp_on (Location.orderOptional Span.order) Location.bytes
  have := transCmp_on ColumnUnit.order Location.columns
  inferInstanceAs (TransCmp (compareLex
    (fun l m : Location => l.start.order m.start)
    (compareLex (fun l m => l.stop.order m.stop)
      (compareLex (fun l m => Location.orderOptional Span.order l.bytes m.bytes)
        fun l m => l.columns.order m.columns))))

instance : LawfulEqCmp Location.order where
  eq_of_compare := by
    rintro ⟨start, stop, bytes, columns⟩ ⟨start', stop', bytes', columns'⟩ h
    obtain ⟨hstart, h⟩ := Ordering.then_eq_eq.1 h
    obtain ⟨hstop, h⟩ := Ordering.then_eq_eq.1 h
    obtain ⟨hbytes, hcolumns⟩ := Ordering.then_eq_eq.1 h
    have hstart : start = start' := LawfulEqCmp.eq_of_compare hstart
    have hstop : stop = stop' := LawfulEqCmp.eq_of_compare hstop
    have hbytes : bytes = bytes' := LawfulEqCmp.eq_of_compare hbytes
    have hcolumns : columns = columns' := LawfulEqCmp.eq_of_compare hcolumns
    rw [hstart, hstop, hbytes, hcolumns]

namespace Finding

variable {f g b : Finding} {findings more : List Finding}

instance : TransCmp order :=
  have := transCmp_on Path.order Finding.path
  have := transCmp_on Location.order Finding.location
  have := transCmp_on (compare : String → String → Ordering) Finding.rule
  have := transCmp_on (compare : String → String → Ordering) Finding.tool
  inferInstanceAs (TransCmp (compareLex
    (fun f g : Finding => f.path.order g.path)
    (compareLex (fun f g => f.location.order g.location)
      (compareLex (fun f g => compare f.rule g.rule) fun f g => compare f.tool g.tool))))

/-! ## What a finding is -/

/-- **The bare finding**: without severity, message and metadata, which are no
part of what it is. -/
def bare (f : Finding) : Finding := { f with severity := .info, message := none, metadata := [] }

/-- **A genuine finding** has the id that it should have and a canonical
path. -/
structure Genuine (f : Finding) : Prop where
  id : f.id = idOf f.tool f.rule f.path f.location
  path : f.path.Canonical

/-- **Findings that are as one to the order** are the same but for severity,
message and metadata. -/
theorem Genuine.bare_eq (hf : f.Genuine) (hg : g.Genuine) (h : f.order g = .eq) :
    f.bare = g.bare := by
  obtain ⟨hpath, h⟩ := Ordering.then_eq_eq.1 h
  obtain ⟨hlocation, h⟩ := Ordering.then_eq_eq.1 h
  obtain ⟨hrule, htool⟩ := Ordering.then_eq_eq.1 h
  have hpath := Path.eq_of_components_eq hf.path hg.path (Path.components_eq_of_order hpath)
  have hlocation : f.location = g.location := LawfulEqCmp.eq_of_compare hlocation
  have hrule : f.rule = g.rule := LawfulEqOrd.eq_of_compare hrule
  have htool : f.tool = g.tool := LawfulEqOrd.eq_of_compare htool
  have hid : f.id = g.id := by rw [hf.id, hg.id, hpath, hlocation, hrule, htool]
  rw [bare, bare, hid, htool, hrule, hpath, hlocation]

/-! ## Joining -/

theorem worse_eq (f g : Finding) : worse f g = f ∨ worse f g = g := by
  rw [worse]
  split
  · exact Or.inr rfl
  · exact Or.inl rfl

theorem collapse_of_short (hshort : ∀ f g rest, findings = f :: g :: rest → False) :
    collapse findings = findings := by
  rw [collapse.eq_def]
  split
  · exact absurd rfl (hshort _ _ _)
  · rfl

/-- Only findings that came are kept. -/
theorem collapse_subset (findings : List Finding) : collapse findings ⊆ findings := by
  induction findings using collapse.induct with
  | case1 f g rest hsame ih =>
    rw [collapse, if_pos hsame]
    intro x hx
    rcases List.mem_cons.1 (ih hx) with rfl | hrest
    · rcases worse_eq f g with hworse | hworse <;> rw [hworse] <;> simp
    · exact List.mem_cons_of_mem _ (List.mem_cons_of_mem _ hrest)
  | case2 f g rest hother ih =>
    rw [collapse, if_neg hother]
    exact List.cons_subset_cons f ih
  | case3 findings hshort =>
    rw [collapse_of_short hshort]
    exact List.Subset.refl _

/-- Of each finding that came one that is the same is kept. -/
theorem exists_mem_collapse (h : f ∈ findings) : ∃ g ∈ collapse findings, g.order f = .eq := by
  induction findings using collapse.induct generalizing f with
  | case1 a b rest hsame ih =>
    rw [collapse, if_pos hsame]
    have hboth : (worse a b).order a = .eq ∧ (worse a b).order b = .eq := by
      rcases worse_eq a b with hworse | hworse
      · rw [hworse]
        exact ⟨ReflCmp.compare_self, hsame⟩
      · rw [hworse]
        exact ⟨OrientedCmp.eq_symm hsame, ReflCmp.compare_self⟩
    obtain ⟨g, hg, hworse⟩ := ih List.mem_cons_self
    rw [List.mem_cons, List.mem_cons] at h
    rcases h with hf | hf | hrest
    · exact ⟨g, hg, hf ▸ TransCmp.eq_trans hworse hboth.1⟩
    · exact ⟨g, hg, hf ▸ TransCmp.eq_trans hworse hboth.2⟩
    · exact ih (List.mem_cons_of_mem _ hrest)
  | case2 a b rest hother ih =>
    rw [collapse, if_neg hother]
    rcases List.mem_cons.1 h with rfl | hrest
    · exact ⟨f, List.mem_cons_self, ReflCmp.compare_self⟩
    · obtain ⟨g, hg, horder⟩ := ih hrest
      exact ⟨g, List.mem_cons_of_mem _ hg, horder⟩
  | case3 findings hshort =>
    rw [collapse_of_short hshort]
    exact ⟨f, h, ReflCmp.compare_self⟩

/-- The worse of the first two findings can stand for both in the order. -/
theorem pairwise_worse {rest : List Finding}
    (h : (f :: g :: rest).Pairwise fun f g => (f.order g).isLE) :
    (worse f g :: rest).Pairwise fun f g => (f.order g).isLE := by
  obtain ⟨hfirst, hrest⟩ := List.pairwise_cons.1 h
  rcases worse_eq f g with hworse | hworse
  · rw [hworse]
    refine List.pairwise_cons.2 ⟨fun x hx => ?_, (List.pairwise_cons.1 hrest).2⟩
    exact hfirst x (List.mem_cons_of_mem _ hx)
  · rwa [hworse]

/-- In order, a finding that is not the same as the next one is ahead of all
others. -/
theorem order_eq_lt_of_mem {rest : List Finding} {x : Finding}
    (h : (f :: g :: rest).Pairwise fun f g => (f.order g).isLE) (hother : f.order g ≠ .eq)
    (hx : x ∈ g :: rest) : f.order x = .lt := by
  obtain ⟨hfirst, hrest⟩ := List.pairwise_cons.1 h
  have hlt : f.order g = .lt := by
    cases horder : f.order g with
    | lt => rfl
    | eq => exact absurd horder hother
    | gt =>
      have hle := hfirst g List.mem_cons_self
      rw [horder] at hle
      cases hle
  rcases List.mem_cons.1 hx with rfl | hbehind
  · exact hlt
  · exact TransCmp.lt_of_lt_of_isLE hlt ((List.pairwise_cons.1 hrest).1 x hbehind)

/-- Findings in order are kept in strict order. -/
theorem pairwise_collapse (h : findings.Pairwise fun f g => (f.order g).isLE) :
    (collapse findings).Pairwise fun f g => f.order g = .lt := by
  induction findings using collapse.induct with
  | case1 f g rest hsame ih =>
    rw [collapse, if_pos hsame]
    exact ih (pairwise_worse h)
  | case2 f g rest hother ih =>
    rw [collapse, if_neg hother]
    refine List.pairwise_cons.2 ⟨fun x hx => ?_, ih (List.pairwise_cons.1 h).2⟩
    exact order_eq_lt_of_mem h hother (collapse_subset _ hx)
  | case3 findings hshort =>
    rw [collapse_of_short hshort]
    rcases findings with _ | ⟨f, _ | ⟨g, rest⟩⟩
    · exact List.Pairwise.nil
    · exact List.pairwise_singleton _ f
    · exact absurd rfl (hshort f g rest)

/-! ## Deduplication -/

theorem pairwise_deduplicate (findings : List Finding) :
    (deduplicate findings).Pairwise fun f g => f.order g = .lt :=
  pairwise_collapse
    (List.pairwise_mergeSort (fun _ _ _ => TransCmp.isLE_trans) isLE_or_isLE findings)

/-- The bare findings that are kept are those that came. -/
theorem mem_map_bare_deduplicate (hgenuine : ∀ f ∈ findings, f.Genuine) :
    b ∈ (deduplicate findings).map bare ↔ b ∈ findings.map bare := by
  have hcame : ∀ f ∈ deduplicate findings, f ∈ findings := fun f hf =>
    List.mem_mergeSort.1 (collapse_subset _ hf)
  simp only [List.mem_map]
  constructor
  · rintro ⟨f, hf, rfl⟩
    exact ⟨f, hcame f hf, rfl⟩
  · rintro ⟨f, hf, rfl⟩
    obtain ⟨g, hg, horder⟩ := exists_mem_collapse (List.mem_mergeSort.2 hf)
    exact ⟨g, hg, (hgenuine g (hcame g hg)).bare_eq (hgenuine f hf) horder⟩

/-- **The findings that are kept** are told, but for severity, message and
metadata, by those that came, in whatever order and however often. -/
theorem map_bare_deduplicate_congr (hfindings : ∀ f ∈ findings, f.Genuine)
    (hmore : ∀ f ∈ more, f.Genuine) (h : ∀ b, b ∈ findings.map bare ↔ b ∈ more.map bare) :
    (deduplicate findings).map bare = (deduplicate more).map bare := by
  have hstrict : ∀ findings : List Finding,
      ((deduplicate findings).map bare).Pairwise fun f g => f.order g = .lt := fun findings =>
    List.pairwise_map.2 (pairwise_deduplicate findings)
  have hnodup : ∀ findings : List Finding, ((deduplicate findings).map bare).Nodup := by
    refine fun findings => (hstrict findings).imp ?_
    rintro f g hlt rfl
    have hself : f.order f = .eq := ReflCmp.compare_self
    rw [hself] at hlt
    cases hlt
  have hperm : ((deduplicate findings).map bare).Perm ((deduplicate more).map bare) := by
    rw [List.perm_ext_iff_of_nodup (hnodup findings) (hnodup more)]
    intro b
    rw [mem_map_bare_deduplicate hfindings, mem_map_bare_deduplicate hmore, h]
  refine hperm.eq_of_pairwise (fun f g _ _ hfg hgf => ?_) (hstrict findings) (hstrict more)
  rw [OrientedCmp.gt_of_lt hgf] at hfg
  cases hfg

end Finding

end Remedy
