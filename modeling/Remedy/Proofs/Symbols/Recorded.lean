import Mathlib
import Remedy.Proofs.Order
import Remedy.Proofs.Symbols.Rearranged
import Remedy.Proofs.Symbols.Uses
/-!
# What a table has recorded

The references of a file are sorted by their spans, and of those at one span
the first is kept, so that they stand in a strict order
(`Reference.pairwise_ofOutline`) and a search by halving finds what looking
through them does (`Reference.bisect?_eq_find?`). Nothing is lost: there is a
reference at a span if and only if the file uses a name there, and it is that
of the name (`SymbolTable.recorded`).
-/

namespace Remedy

/-! ## References in order -/

namespace Reference

variable {outlines : List Outline} {o : Outline} {refs : List Reference} {span : Span}

/-- A name that a file uses, with what it stands for. -/
def ofUse (outlines : List Outline) (o : Outline) (u : NameUse) : Reference :=
  ⟨u.name, u.span, Resolution.ofName outlines o u.name u.span⟩

/-- Of references in order, one is kept for each span. -/
theorem pairwise_distinct (h : refs.Pairwise fun r s => r.span.le s.span) :
    (distinct refs).Pairwise fun r s => r.span.order s.span = .lt := by
  induction refs using distinct.induct with
  | case1 a b rest hsame ih =>
    rw [distinct, if_pos hsame]
    exact ih (h.sublist (List.Sublist.cons_cons a (List.sublist_cons_self b rest)))
  | case2 a b rest hother ih =>
    rw [distinct, if_neg hother]
    obtain ⟨hfirst, hrest⟩ := List.pairwise_cons.1 h
    have hbehind : a.span.order b.span = .lt := by
      have hle := Span.le_iff.1 (hfirst b List.mem_cons_self)
      have hne := mt Span.order_eq_eq.1 hother
      cases horder : a.span.order b.span with
      | lt => rfl
      | eq => exact absurd horder hne
      | gt =>
        rw [Span.order_eq_gt] at horder
        omega
    refine List.pairwise_cons.2 ⟨fun r hr => ?_, ih hrest⟩
    rcases List.mem_cons.1 (mem_of_mem_distinct hr) with rfl | hr
    · exact hbehind
    · have hlater := Span.le_iff.1 ((List.pairwise_cons.1 hrest).1 r hr)
      rw [Span.order_eq_lt] at hbehind ⊢
      omega
  | case3 refs hshort =>
    rw [distinct.eq_2 refs hshort]
    cases refs with
    | nil => exact .nil
    | cons a refs =>
      cases refs with
      | nil => exact List.pairwise_singleton _ a
      | cons b rest => exact absurd rfl (hshort a b rest)

/-- The one that is kept is the first one there. -/
theorem find?_distinct (refs : List Reference) (span : Span) :
    (distinct refs).find? (·.span = span) = refs.find? (·.span = span) := by
  induction refs using distinct.induct with
  | case1 a b rest hsame ih =>
    rw [distinct, if_pos hsame, ih, List.find?_cons, List.find?_cons]
    split
    · rfl
    · next ha =>
      rw [List.find?_cons_of_neg]
      rw [← hsame, ha]
      exact Bool.false_ne_true
  | case2 a b rest hother ih =>
    rw [distinct, if_neg hother, List.find?_cons, List.find?_cons, ih]
  | case3 refs hshort => rw [distinct.eq_2 refs hshort]

/-- Sorting leaves the first reference at a span the first one there. -/
theorem find?_mergeSort (refs : List Reference) (span : Span) :
    (refs.mergeSort fun a b => a.span.le b.span).find? (·.span = span) =
      refs.find? (·.span = span) := by
  have := transCmp_on Span.order Reference.span
  have hstable := filter_mergeSort (fun a b : Reference => a.span.order b.span)
    (fun r => decide (r.span = span)) refs
  -- all that is at the span is in order already
  have hsorted : (refs.filter fun r => decide (r.span = span)).Pairwise
      fun a b => (a.span.order b.span).isLE := by
    refine List.pairwise_of_forall_mem_list fun a ha b hb => ?_
    have ha := of_decide_eq_true (List.mem_filter.1 ha).2
    have hb := of_decide_eq_true (List.mem_filter.1 hb).2
    rw [Span.order_eq_eq.2 (ha.trans hb.symm)]
    rfl
  rw [List.mergeSort_of_pairwise hsorted] at hstable
  rw [← List.head?_filter, ← List.head?_filter]
  exact congrArg List.head? hstable

/-- **The references of an outline stand in a strict order**, -/
theorem pairwise_ofOutline (outlines : List Outline) (o : Outline) :
    (ofOutline outlines o).Pairwise fun r s => r.span.order s.span = .lt :=
  pairwise_distinct (List.pairwise_mergeSort
    (fun a b c : Reference => @Span.le_trans a.span b.span c.span)
    (fun a b : Reference => Span.le_total a.span b.span) _)

/-- **and at a span there is the reference of the first name that is used
there.** -/
theorem find?_ofOutline (outlines : List Outline) (o : Outline) (span : Span) :
    (ofOutline outlines o).find? (·.span = span) =
      (o.uses.find? (·.span = span)).map (ofUse outlines o) := by
  rw [ofOutline, find?_distinct, find?_mergeSort, List.find?_map]
  rfl

/-! ### The search by halving -/

/-- **A search by halving**: while more than one reference is left, the one in
the middle tells which half may be left out. -/
def bisect? (span : Span) (refs : List Reference) : Option Reference :=
  if h : 1 < refs.length then
    if refs[refs.length / 2].span.order span = .gt then
      bisect? span (refs.take (refs.length - refs.length / 2))
    else bisect? span (refs.drop (refs.length / 2))
  else refs.find? (·.span = span)
termination_by refs.length
decreasing_by
  · rw [List.length_take]
    omega
  · rw [List.length_drop]
    omega

/-- Behind a reference that is behind a span there is none at the span, -/
theorem find?_drop_eq_none {i n : Nat} (h : refs.Pairwise fun r s => r.span.order s.span = .lt)
    (hi : i < refs.length) (hbehind : refs[i].span.order span = .gt) (hn : i ≤ n) :
    (refs.drop n).find? (·.span = span) = none := by
  refine List.find?_eq_none.2 fun r hr hspan => ?_
  obtain ⟨j, hj, rfl⟩ := List.getElem_of_mem hr
  rw [List.length_drop] at hj
  rw [List.getElem_drop, decide_eq_true_eq] at hspan
  rw [Span.order_eq_gt, ← hspan] at hbehind
  rcases Nat.eq_or_lt_of_le (hn.trans (Nat.le_add_right n j)) with rfl | hlater
  · omega
  · have hahead := Span.order_eq_lt.1 (List.pairwise_iff_getElem.1 h i (n + j) hi (by omega) hlater)
    omega

/-- and none ahead of one that is not. -/
theorem find?_take_eq_none {i : Nat} (h : refs.Pairwise fun r s => r.span.order s.span = .lt)
    (hi : i < refs.length) (hnot : refs[i].span.order span ≠ .gt) :
    (refs.take i).find? (·.span = span) = none := by
  refine List.find?_eq_none.2 fun r hr hspan => ?_
  obtain ⟨j, hj, rfl⟩ := List.getElem_of_mem hr
  rw [List.length_take] at hj
  rw [List.getElem_take, decide_eq_true_eq] at hspan
  have hahead := Span.order_eq_lt.1
    (List.pairwise_iff_getElem.1 h j i (by omega) hi (by omega))
  rw [Ne, Span.order_eq_gt, ← hspan] at hnot
  omega

/-- **Halving finds what looking through all does**, in a strict order. -/
theorem bisect?_eq_find? (h : refs.Pairwise fun r s => r.span.order s.span = .lt) :
    bisect? span refs = refs.find? (·.span = span) := by
  induction refs using bisect?.induct span with
  | case1 refs hlong hbehind ih =>
    rw [bisect?, dif_pos hlong, if_pos hbehind, ih (h.sublist (List.take_sublist _ _))]
    conv_rhs => rw [← List.take_append_drop (refs.length - refs.length / 2) refs,
      List.find?_append, find?_drop_eq_none h _ hbehind (by omega), Option.or_none]
  | case2 refs hlong hnot ih =>
    rw [bisect?, dif_pos hlong, if_neg hnot, ih (h.sublist (List.drop_sublist _ _))]
    conv_rhs => rw [← List.take_append_drop (refs.length / 2) refs,
      List.find?_append, find?_take_eq_none h _ hnot, Option.none_or]
  | case3 refs hshort => rw [bisect?, dif_neg hshort]

end Reference

/-! ## Tables -/

namespace SymbolTable

variable {units : List SourceUnit} {file u v : SourceUnit} {path : Path}

/-- Files at one path are one file, if all are at paths of their own. -/
theorem eq_of_same (hapart : units.Pairwise fun u v => ¬ u.path.same v.path) (hu : u ∈ units)
    (hv : v ∈ units) (hsame : u.path.same v.path) : u = v := by
  by_contra hne
  have hsymm : Std.Symm fun u v : SourceUnit => ¬ u.path.same v.path := ⟨fun u v h h' => by
    rw [Path.same, beq_iff_eq] at h h'
    exact h h'.symm⟩
  exact hapart.forall hu hv hne hsame

/-- **The references at the path of a file** are those of its outline, if all
files are at paths of their own. -/
theorem references_of_mem (hapart : units.Pairwise fun u v => ¬ u.path.same v.path)
    (hfile : file ∈ units) :
    (build units).references file.path =
      ((outline? file).map (Reference.ofOutline (outlines units))).getD [] := by
  have hown : ∀ o ∈ (outlines units).filter fun o => o.path.same file.path,
      outline? file = some o := by
    intro o hmem
    obtain ⟨ho, hsame⟩ := List.mem_filter.1 hmem
    obtain ⟨u, hu, huo⟩ := mem_outlines.1 ho
    rw [path_of_outline? huo] at hsame
    exact eq_of_same hapart hu hfile hsame ▸ huo
  rw [references_build]
  cases hlast : ((outlines units).filter fun o => o.path.same file.path).getLast? with
  | some o => rw [hown o (List.mem_of_getLast? hlast)]
  | none =>
    cases ho : outline? file with
    | none => rfl
    | some o =>
      have hmem : o ∈ (outlines units).filter fun o => o.path.same file.path := by
        refine List.mem_filter.2 ⟨mem_outlines.2 ⟨file, hfile, ho⟩, ?_⟩
        rw [path_of_outline? ho, Path.same]
        exact beq_self_eq_true _
      rw [List.getLast?_eq_none_iff.1 hlast] at hmem
      cases hmem

/-- **All references of a table** are those of its files, one file after the
other. -/
theorem flatMap_files (hapart : units.Pairwise fun u v => ¬ u.path.same v.path) :
    (build units).files.flatMap Prod.snd =
      units.flatMap fun u => (build units).references u.path := by
  have hcollected : ∀ (refs : Outline → FileReferences) (us : List SourceUnit),
      (us.filterMap outline?).flatMap refs =
        us.flatMap fun u => ((outline? u).map refs).getD [] := by
    intro refs us
    induction us with
    | nil => rfl
    | cons u us ih =>
      rw [List.flatMap_cons, ← ih]
      cases ho : outline? u with
      | none => rw [List.filterMap_cons_none ho]; rfl
      | some o => rw [List.filterMap_cons_some ho]; rfl
  calc (build units).files.flatMap Prod.snd
    _ = (outlines units).flatMap (Reference.ofOutline (outlines units)) := by
      rw [files_build (pairwise_outlines hapart), List.flatMap_map]
    _ = units.flatMap fun u => ((outline? u).map (Reference.ofOutline (outlines units))).getD [] :=
      hcollected _ units
    _ = units.flatMap fun u => (build units).references u.path :=
      List.flatMap_congr fun u hu => (references_of_mem hapart hu).symm

/-- A reference that is a gap is one with the same name, span and reason. -/
def IsGapOf (path : Path) (gap : ResolutionGap) (r : Reference) : Prop :=
  gap.path = path ∧ gap.name = r.name ∧ gap.span = r.span ∧ r.resolution = .gap gap.reason

/-- **The gaps at a path** are the references there that could not be bound,
in order. -/
theorem forall₂_gaps (table : SymbolTable) (path : Path) :
    List.Forall₂ (IsGapOf path) (table.gaps path)
      ((table.references path).filter fun r => r.resolution.gap?.isSome) := by
  rw [gaps]
  induction table.references path with
  | nil => exact .nil
  | cons r refs ih =>
    cases hgap : r.resolution.gap? with
    | none =>
      rw [List.filterMap_cons_none (by rw [gapOf?, hgap, Option.map_none]),
        List.filter_cons_of_neg (by rw [hgap]; exact Bool.false_ne_true)]
      exact ih
    | some reason =>
      have hreason : r.resolution = .gap reason := by
        rw [Resolution.gap?.eq_def] at hgap
        split at hgap <;> cases hgap
        assumption
      rw [List.filterMap_cons_some (by rw [gapOf?, hgap, Option.map_some]),
        List.filter_cons_of_pos (by rw [hgap]; rfl)]
      exact .cons ⟨rfl, rfl, rfl, hreason⟩ ih

theorem length_gaps (table : SymbolTable) (path : Path) :
    (table.gaps path).length =
      ((table.references path).filter fun r => r.resolution.gap?.isSome).length :=
  (forall₂_gaps table path).length_eq

/-- **A table that has recorded all** of what the files of a project use. -/
structure Recorded (units : List SourceUnit) : Prop where
  /-- At each path the references are in a strict order of their spans, -/
  increasing : ∀ path,
    ((build units).references path).Pairwise fun r s => r.span.order s.span = .lt
  /-- so that a search by halving finds the one at a span. -/
  bisected : ∀ path span,
    Reference.bisect? span ((build units).references path) = (build units).referenceAt? path span
  /-- It is that of the first name that the outline has there; a file without
  an outline has none. -/
  first : ∀ file ∈ units, ∀ span,
    (build units).referenceAt? file.path span = (outline? file).bind fun o =>
      (o.uses.find? (·.span = span)).map (.ofUse (outlines units) o)
  /-- In a file with a regular tree there is one name at a span at most, so
  each that is used has its reference. -/
  every : ∀ file ∈ units, ∀ root, file.tree? = some root → root.Regular file.text →
    ∃ o, outline? file = some o ∧ ∀ span r, (build units).referenceAt? file.path span = some r ↔
      ∃ u ∈ o.uses, u.span = span ∧ r = .ofUse (outlines units) o u
  /-- The gaps at a path are the references that could not be bound. -/
  gaps : ∀ path, List.Forall₂ (IsGapOf path) ((build units).gaps path)
    (((build units).references path).filter fun r => r.resolution.gap?.isSome)
  /-- Each reference is counted once, as bound or as a gap, -/
  counts : (build units).stats.references =
    (build units).stats.resolved + (build units).stats.gaps
  /-- at the path of its file. -/
  countsReferences : (build units).stats.references =
    (units.map fun u => ((build units).references u.path).length).sum
  countsGaps : (build units).stats.gaps =
    (units.map fun u => ((build units).gaps u.path).length).sum

theorem pairwise_references (units : List SourceUnit) (path : Path) :
    ((build units).references path).Pairwise fun r s => r.span.order s.span = .lt := by
  rw [references_build]
  cases ((outlines units).filter fun o => o.path.same path).getLast? with
  | none => exact .nil
  | some o => exact Reference.pairwise_ofOutline (outlines units) o

theorem referenceAt?_of_mem (hapart : units.Pairwise fun u v => ¬ u.path.same v.path)
    (hfile : file ∈ units) (span : Span) :
    (build units).referenceAt? file.path span = (outline? file).bind fun o =>
      (o.uses.find? (·.span = span)).map (.ofUse (outlines units) o) := by
  rw [referenceAt?, references_of_mem hapart hfile]
  cases outline? file with
  | none => rfl
  | some o => exact Reference.find?_ofOutline (outlines units) o span

/-- **The table of files at paths of their own has recorded all.** -/
theorem recorded (hapart : units.Pairwise fun u v => ¬ u.path.same v.path) : Recorded units where
  increasing := pairwise_references units
  bisected path _ := Reference.bisect?_eq_find? (pairwise_references units path)
  first _ := referenceAt?_of_mem hapart
  every file hfile root htree hregular := by
    refine ⟨.ofTree file.path file.text root, by rw [outline?, htree, Option.map_some],
      fun span r => ?_⟩
    rw [referenceAt?_of_mem hapart hfile, outline?, htree, Option.map_some, Option.bind_some,
      Option.map_eq_some_iff]
    have hat : ∀ {u}, (Outline.ofTree file.path file.text root).uses.find? (·.span = span) = some u →
        u.span = span := fun hfound => by
      have hspan := List.find?_some hfound
      rwa [decide_eq_true_eq] at hspan
    constructor
    · rintro ⟨u, hfound, rfl⟩
      exact ⟨u, List.mem_of_find?_eq_some hfound, hat hfound, rfl⟩
    · rintro ⟨u, hu, hspan, rfl⟩
      -- there is a first use at the span, and it is this one
      cases hfound : (Outline.ofTree file.path file.text root).uses.find? (·.span = span) with
      | none => exact absurd (decide_eq_true hspan) (List.find?_eq_none.1 hfound u hu)
      | some v =>
        exact ⟨v, rfl, congrArg _ (Outline.eq_of_span_eq hregular
          (List.mem_of_find?_eq_some hfound) hu ((hat hfound).trans hspan.symm))⟩
  gaps := forall₂_gaps (build units)
  counts := by
    have hgap : (fun r : Reference => decide ¬ r.resolution.gap?.isNone) =
        fun r => r.resolution.gap?.isSome := by
      funext r
      cases r.resolution.gap? <;> rfl
    rw [stats, ← List.countP_eq_length_filter, ← List.countP_eq_length_filter, ← hgap]
    exact List.length_eq_countP_add_countP _
  countsReferences := by
    rw [stats, flatMap_files hapart, List.length_flatMap]
  countsGaps := by
    have hgaps : ∀ us : List SourceUnit,
        ((us.flatMap fun u => (build units).references u.path).filter
          fun r => r.resolution.gap?.isSome).length =
          (us.map fun u => ((build units).gaps u.path).length).sum := by
      intro us
      simp only [length_gaps, List.filter_flatMap, List.length_flatMap]
    rw [stats, flatMap_files hapart, hgaps]

/-! ### A small project -/

/-- A file that uses a type of its package, one with points, and one that is
nowhere declared, -/
def withdrawals : SourceUnit :=
  .ofJava "bank/Withdrawals.java"
    "package bank;class Withdrawals{Account a;java . util.List b;Teller c;}"

/-- and the file of its package. -/
def account : SourceUnit := .ofJava "bank/Account.java" "package bank;class Account{}"

theorem recorded_withdrawals :
    [withdrawals, account].Pairwise (fun u v => ¬ u.path.same v.path) ∧
    (∃ root, withdrawals.tree? = some root ∧ root.Regular withdrawals.text) ∧
    [⟨31, 38⟩, ⟨41, 57⟩, ⟨41, 45⟩, ⟨60, 66⟩].map
        ((build [withdrawals, account]).referenceAt? withdrawals.path) =
      [some ⟨"Account", ⟨31, 38⟩, .type "bank.Account"⟩,
        some ⟨"java.util.List", ⟨41, 57⟩, .type "java.util.List"⟩, none,
        some ⟨"Teller", ⟨60, 66⟩, .gap .unresolved⟩] ∧
    Recorded [withdrawals, account] := by
  have hapart : [withdrawals, account].Pairwise fun u v => ¬ u.path.same v.path := by
    decide +kernel
  have hall := recorded hapart
  have hfirst := funext (hall.first withdrawals List.mem_cons_self)
  have hparsed : withdrawals.tree?.isSome := by decide +kernel
  obtain ⟨root, htree⟩ := Option.isSome_iff_exists.1 hparsed
  refine ⟨hapart, ⟨root, htree, SourceUnit.regular_of_ofJava htree⟩, ?_, hall⟩
  rw [hfirst]
  decide +kernel

end SymbolTable

end Remedy
