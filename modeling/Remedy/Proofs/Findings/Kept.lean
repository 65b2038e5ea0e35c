import Mathlib
import Remedy.Proofs.Findings.Deduplicate
/-!
# Which findings are kept

Findings of one key are the same, and the first of the most severe ones
stands for all of them (`Finding.Leads`). Deduplication keeps these, each key
once and in order (`Finding.exact_deduplicate`). So it has nothing left to
do on findings that were kept before, and the keys and how severe each is do
not depend on the order in which findings came.
-/

namespace Remedy

open Std

/-- The severities differ in rank. -/
theorem Severity.eq_of_rank_eq {s t : Severity} (h : s.rank = t.rank) : s = t := by
  cases s <;> cases t <;> first | rfl | cases h

namespace Finding

/-- **What tells a finding from others**: its tool, its rule, the place that
its path names, and its location. -/
structure Key where
  tool : String
  rule : String
  place : List PathComponent
  location : Location
deriving DecidableEq

/-- The key of a finding. -/
def key (f : Finding) : Key := ⟨f.tool, f.rule, f.path.components, f.location⟩

/-- Keys are ordered by place, location, rule and tool. -/
def Key.order (k l : Key) : Ordering :=
  (Path.orderComponents k.place l.place).then <| (k.location.order l.location).then <|
    (compare k.rule l.rule).then (compare k.tool l.tool)

/-- **A finding leads a list**: it is more severe than those of its key ahead
of it, and as severe as those behind it. -/
def Leads (f : Finding) (findings : List Finding) : Prop :=
  ∃ ahead behind, findings = ahead ++ f :: behind ∧
    (∀ g ∈ ahead, g.key = f.key → g.severity.rank < f.severity.rank) ∧
    ∀ g ∈ behind, g.key = f.key → g.severity.rank ≤ f.severity.rank

variable {f g x : Finding} {k : Key} {s : Severity} {findings others rest : List Finding}

/-! ## Keys -/

theorem order_eq_order_key (f g : Finding) : f.order g = f.key.order g.key := rfl

/-- **Findings of one key** are those that are as one to the order. -/
theorem key_eq_iff : f.key = g.key ↔ f.order g = .eq := by
  constructor
  · intro h
    rw [order_eq_order_key, h, ← order_eq_order_key]
    exact ReflCmp.compare_self
  · intro h
    obtain ⟨hpath, h⟩ := Ordering.then_eq_eq.1 h
    obtain ⟨hlocation, h⟩ := Ordering.then_eq_eq.1 h
    obtain ⟨hrule, htool⟩ := Ordering.then_eq_eq.1 h
    have hpath := Path.components_eq_of_order hpath
    have hlocation : f.location = g.location := LawfulEqCmp.eq_of_compare hlocation
    have hrule : f.rule = g.rule := LawfulEqOrd.eq_of_compare hrule
    have htool : f.tool = g.tool := LawfulEqOrd.eq_of_compare htool
    rw [key, key, htool, hrule, hpath, hlocation]

theorem key_ne_of_lt (h : f.order g = .lt) : f.key ≠ g.key := by
  intro hkey
  rw [key_eq_iff.1 hkey] at h
  cases h

/-! ## Leading findings -/

theorem Leads.mem (h : f.Leads findings) : f ∈ findings := by
  obtain ⟨ahead, behind, rfl, -⟩ := h
  exact List.mem_append_right ahead List.mem_cons_self

/-- **No finding of its key is more severe** than one that leads. -/
theorem Leads.rank_le (h : f.Leads findings) (hg : g ∈ findings) (hkey : g.key = f.key) :
    g.severity.rank ≤ f.severity.rank := by
  obtain ⟨ahead, behind, rfl, hahead, hbehind⟩ := h
  rcases List.mem_append.1 hg with hg | hg
  · exact Nat.le_of_lt (hahead g hg hkey)
  · rcases List.mem_cons.1 hg with rfl | hg
    · exact Nat.le_refl _
    · exact hbehind g hg hkey

theorem not_leads_nil : ¬ f.Leads [] := by
  intro h
  cases h.mem

/-- A finding leads from the start, or it leads the rest and is more severe
than what is at the start. -/
theorem leads_cons : x.Leads (f :: rest) ↔
    (x = f ∧ ∀ g ∈ rest, g.key = f.key → g.severity.rank ≤ f.severity.rank) ∨
      (f.key = x.key → f.severity.rank < x.severity.rank) ∧ x.Leads rest := by
  constructor
  · rintro ⟨ahead, behind, hsplit, hahead, hbehind⟩
    cases ahead with
    | nil =>
      obtain ⟨rfl, rfl⟩ := List.cons.inj hsplit
      exact Or.inl ⟨rfl, hbehind⟩
    | cons a ahead =>
      obtain ⟨rfl, rfl⟩ := List.cons.inj hsplit
      obtain ⟨hfirst, hahead⟩ := List.forall_mem_cons.1 hahead
      exact Or.inr ⟨hfirst, ahead, behind, rfl, hahead, hbehind⟩
  · rintro (⟨rfl, hbehind⟩ | ⟨hfirst, ahead, behind, rfl, hahead, hbehind⟩)
    · exact ⟨[], rest, rfl, nofun, hbehind⟩
    · exact ⟨f :: ahead, behind, rfl, List.forall_mem_cons.2 ⟨hfirst, hahead⟩, hbehind⟩

/-- Which findings lead is told for each key on its own. -/
theorem leads_filter_key :
    f.Leads (findings.filter fun g => g.key = f.key) ↔ f.Leads findings := by
  induction findings with
  | nil => rfl
  | cons a findings ih =>
    by_cases hkey : a.key = f.key
    · rw [List.filter_cons_of_pos (by simpa using hkey), leads_cons, leads_cons, ih]
      refine or_congr (and_congr_right ?_) Iff.rfl
      rintro rfl
      simp only [List.mem_filter, decide_eq_true_eq, and_imp]
      exact forall₂_congr fun g _ => ⟨fun h hg => h hg hg, fun h hg _ => h hg⟩
    · rw [List.filter_cons_of_neg (by simpa using hkey), ih, leads_cons]
      constructor
      · exact fun h => Or.inr ⟨fun hsame => absurd hsame hkey, h⟩
      · rintro (⟨rfl, -⟩ | ⟨-, h⟩)
        · exact absurd rfl hkey
        · exact h

/-- The worse of two findings of one key stands for both. -/
theorem leads_worse (h : f.key = g.key) :
    x.Leads (worse f g :: rest) ↔ x.Leads (f :: g :: rest) := by
  rw [worse]
  split
  case isTrue hlt =>
    simp only [leads_cons, List.forall_mem_cons]
    constructor
    · rintro (⟨rfl, hrest⟩ | ⟨hfirst, hx⟩)
      · exact Or.inr ⟨fun _ => hlt, Or.inl ⟨rfl, hrest⟩⟩
      · exact Or.inr ⟨fun hkey => hlt.trans (hfirst (h ▸ hkey)), Or.inr ⟨hfirst, hx⟩⟩
    · rintro (⟨rfl, hle, -⟩ | ⟨-, hx⟩)
      · exact absurd (hle h.symm) (Nat.not_le.2 hlt)
      · exact hx
  case isFalse hle =>
    rw [Nat.not_lt] at hle
    simp only [leads_cons, List.forall_mem_cons]
    constructor
    · rintro (⟨rfl, hrest⟩ | ⟨hfirst, hx⟩)
      · exact Or.inl ⟨rfl, fun _ => hle, hrest⟩
      · have hlt : g.key = x.key → g.severity.rank < x.severity.rank :=
          fun hkey => hle.trans_lt (hfirst (h.trans hkey))
        exact Or.inr ⟨hfirst, Or.inr ⟨hlt, hx⟩⟩
    · rintro (⟨rfl, -, hrest⟩ | ⟨hfirst, ⟨rfl, -⟩ | ⟨-, hx⟩⟩)
      · exact Or.inl ⟨rfl, hrest⟩
      · exact absurd (hfirst h) (Nat.not_lt.2 hle)
      · exact Or.inr ⟨hfirst, hx⟩

/-! ## What is kept -/

/-- In order, **the findings that lead are kept**. -/
theorem mem_collapse_iff (h : findings.Pairwise fun f g => (f.order g).isLE) :
    x ∈ collapse findings ↔ x.Leads findings := by
  induction findings using collapse.induct with
  | case1 f g rest hsame ih =>
    rw [collapse, if_pos hsame, ← leads_worse (key_eq_iff.2 hsame)]
    exact ih (pairwise_worse h)
  | case2 f g rest hother ih =>
    -- nothing behind the first finding has its key
    have hne : ∀ y ∈ g :: rest, f.key ≠ y.key :=
      fun y hy => key_ne_of_lt (order_eq_lt_of_mem h hother hy)
    refine Iff.trans ?_ leads_cons.symm
    rw [collapse, if_neg hother, List.mem_cons, ih (List.pairwise_cons.1 h).2]
    refine or_congr ?_ ?_
    · exact (and_iff_left fun y hy hkey => absurd hkey.symm (hne y hy)).symm
    · exact (and_iff_right_of_imp fun hx hkey => absurd hkey (hne x hx.mem)).symm
  | case3 findings hshort =>
    rw [collapse_of_short hshort]
    rcases findings with _ | ⟨f, _ | ⟨g, rest⟩⟩
    · exact iff_of_false List.not_mem_nil not_leads_nil
    · rw [List.mem_singleton, leads_cons, or_iff_left fun h => not_leads_nil h.2]
      exact (and_iff_left (List.forall_mem_nil _)).symm
    · exact absurd rfl (hshort f g rest)

/-- Findings of one key stay in the order in which they came. -/
theorem filter_key_mergeSort (k : Key) (findings : List Finding) :
    (findings.mergeSort fun f g => (f.order g).isLE).filter (fun f => f.key = k) =
      findings.filter fun f => f.key = k := by
  rw [filter_mergeSort order]
  refine List.mergeSort_of_pairwise (List.pairwise_of_forall_mem_list fun f hf g hg => ?_)
  have hf : f.key = k := of_decide_eq_true (List.mem_filter.1 hf).2
  have hg : g.key = k := of_decide_eq_true (List.mem_filter.1 hg).2
  rw [key_eq_iff.1 (hf.trans hg.symm)]
  rfl

/-- **The findings that lead are kept.** -/
theorem mem_deduplicate_iff : f ∈ deduplicate findings ↔ f.Leads findings := by
  have hsorted : (findings.mergeSort fun f g => (f.order g).isLE).Pairwise
      fun f g => (f.order g).isLE :=
    List.pairwise_mergeSort (fun _ _ _ => TransCmp.isLE_trans) isLE_or_isLE findings
  rw [deduplicate, mem_collapse_iff hsorted, ← leads_filter_key, filter_key_mergeSort,
    leads_filter_key]

/-- Of each key one finding is kept. -/
theorem exists_mem_deduplicate (h : f ∈ findings) :
    ∃ g ∈ deduplicate findings, g.key = f.key := by
  obtain ⟨g, hg, horder⟩ := exists_mem_collapse (List.mem_mergeSort.2 h)
  exact ⟨g, hg, key_eq_iff.2 horder⟩

theorem mem_map_key_deduplicate :
    k ∈ (deduplicate findings).map key ↔ k ∈ findings.map key := by
  simp only [List.mem_map]
  constructor
  · rintro ⟨f, hf, rfl⟩
    exact ⟨f, (mem_deduplicate_iff.1 hf).mem, rfl⟩
  · rintro ⟨f, hf, rfl⟩
    exact exists_mem_deduplicate hf

theorem nodup_map_key_deduplicate (findings : List Finding) :
    ((deduplicate findings).map key).Nodup :=
  List.pairwise_map.2 ((pairwise_deduplicate findings).imp key_ne_of_lt)

/-- **Findings in strict order are all kept.** -/
theorem deduplicate_of_pairwise (h : findings.Pairwise fun f g => f.order g = .lt) :
    deduplicate findings = findings := by
  have hsorted : findings.Pairwise fun f g => (f.order g).isLE :=
    h.imp fun hlt => by rw [hlt]; rfl
  rw [deduplicate, List.mergeSort_of_pairwise hsorted]
  induction findings using collapse.induct with
  | case1 f g rest hsame _ =>
    have hlt := (List.pairwise_cons.1 h).1 g List.mem_cons_self
    rw [hsame] at hlt
    cases hlt
  | case2 f g rest hother ih =>
    rw [collapse, if_neg hother,
      ih (List.pairwise_cons.1 h).2 (List.pairwise_cons.1 hsorted).2]
  | case3 findings hshort => exact collapse_of_short hshort

/-! ## Keys and severities -/

/-- The key of a finding with how severe it is. -/
def rated (f : Finding) : Key × Severity := (f.key, f.severity)

/-- **How severe a key is** is the highest that came with it. -/
theorem mem_map_rated_deduplicate : (k, s) ∈ (deduplicate findings).map rated ↔
    (k, s) ∈ findings.map rated ∧
      ∀ f ∈ findings, f.key = k → f.severity.rank ≤ s.rank := by
  simp only [List.mem_map]
  constructor
  · rintro ⟨f, hf, hrated⟩
    obtain ⟨rfl, rfl⟩ := Prod.mk.inj hrated
    have hleads := mem_deduplicate_iff.1 hf
    exact ⟨⟨f, hleads.mem, rfl⟩, fun g hg hkey => hleads.rank_le hg hkey⟩
  · rintro ⟨⟨f, hf, hrated⟩, hhighest⟩
    obtain ⟨rfl, rfl⟩ := Prod.mk.inj hrated
    obtain ⟨g, hg, hkey⟩ := exists_mem_deduplicate hf
    have hleads := mem_deduplicate_iff.1 hg
    have hrank : g.severity.rank = f.severity.rank :=
      Nat.le_antisymm (hhighest g hleads.mem hkey) (hleads.rank_le hf hkey.symm)
    exact ⟨g, hg, Prod.ext hkey (Severity.eq_of_rank_eq hrank)⟩

/-- **Keys and severities do not depend on the order** in which findings
came. -/
theorem map_rated_deduplicate_of_perm (h : findings.Perm others) :
    (deduplicate findings).map rated = (deduplicate others).map rated := by
  have hstrict : ∀ findings : List Finding, ((deduplicate findings).map rated).Pairwise
      fun p q => p.1.order q.1 = .lt := fun findings =>
    List.pairwise_map.2 (pairwise_deduplicate findings)
  have hnodup : ∀ findings : List Finding, ((deduplicate findings).map rated).Nodup :=
    fun findings => List.Nodup.of_map Prod.fst (by
      rw [List.map_map]
      exact nodup_map_key_deduplicate findings)
  have hperm : ((deduplicate findings).map rated).Perm ((deduplicate others).map rated) := by
    rw [List.perm_ext_iff_of_nodup (hnodup findings) (hnodup others)]
    rintro ⟨k, s⟩
    rw [mem_map_rated_deduplicate, mem_map_rated_deduplicate, (h.map rated).mem_iff]
    exact and_congr_right fun _ => forall_congr' fun f => imp_congr_left h.mem_iff
  refine hperm.eq_of_pairwise (fun p q hp hq hpq hqp => ?_) (hstrict findings) (hstrict others)
  obtain ⟨f, -, rfl⟩ := List.mem_map.1 hp
  obtain ⟨g, -, rfl⟩ := List.mem_map.1 hq
  rw [rated, rated, ← order_eq_order_key] at hpq hqp
  rw [OrientedCmp.gt_of_lt hqp] at hpq
  cases hpq

/-- **Deduplication is exact.** What it keeps is in strict order; each key
that came is there once and no other is; and a finding is kept if and only if
it is the first of the most severe ones of its key. So deduplication changes
nothing when it is done again, and whatever the order in which findings came,
the same keys are kept, in the same order and as severe. -/
theorem exact_deduplicate (findings : List Finding) :
    (deduplicate findings).Pairwise (fun f g => f.order g = .lt) ∧
    ((deduplicate findings).map key).Nodup ∧
    (∀ k, k ∈ (deduplicate findings).map key ↔ k ∈ findings.map key) ∧
    (∀ f, f ∈ deduplicate findings ↔ f.Leads findings) ∧
    deduplicate (deduplicate findings) = deduplicate findings ∧
    ∀ others, findings.Perm others →
      (deduplicate others).map rated = (deduplicate findings).map rated :=
  ⟨pairwise_deduplicate findings, nodup_map_key_deduplicate findings,
    fun _ => mem_map_key_deduplicate, fun _ => mem_deduplicate_iff,
    deduplicate_of_pairwise (pairwise_deduplicate findings),
    fun _ hperm => (map_rated_deduplicate_of_perm hperm).symm⟩

/-- A finding of one rule at one place, with its path as it was written, how
severe it is and what is said about it. -/
def spotted (path : String) (severity : Severity) (message : String) : Finding :=
  ⟨"", "tool", "R", ⟨path⟩, .lines 1 1, severity, some message, []⟩

/-- Of three copies the second one is kept, or the third one if they came the
other way around. -/
theorem exact_deduplicate_spotted :
    let low := spotted "a//b" .low "first"
    let high := spotted "a/b" .high "second"
    let again := spotted "a/./b" .high "third"
    [low, high, again].Perm [again, high, low] ∧
    high ∈ deduplicate [low, high, again] ∧ again ∈ deduplicate [again, high, low] ∧
    (deduplicate [again, high, low]).map rated = (deduplicate [low, high, again]).map rated := by
  intro low high again
  have hperm : [low, high, again].Perm [again, high, low] := (List.reverse_perm _).symm
  obtain ⟨-, -, -, hkept, -, hrated⟩ := exact_deduplicate [low, high, again]
  obtain ⟨-, -, -, hkept', -, -⟩ := exact_deduplicate [again, high, low]
  refine ⟨hperm, (hkept high).2 ⟨[low], [again], rfl, ?_, ?_⟩,
    (hkept' again).2 ⟨[], [high, low], rfl, nofun, ?_⟩, hrated _ hperm⟩
  all_goals decide +kernel

end Finding

end Remedy
