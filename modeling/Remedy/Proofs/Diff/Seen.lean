import Mathlib.Order.Nat
import Remedy.Diff.Unified
import Remedy.Proofs.Text.Scan
/-!
# Every difference is seen

A script that only keeps lines belongs to equal texts. The division of two
ranges cannot hide a difference: where it stops, the first and the last
lines of what is left differ, so neither part of a division at any point is
all kept (`equal_of_conquer`). Tidying moves and joins edits but never
loses the last that is not kept, and every such edit ends up in a hunk
(`hunks_ne_nil`).
-/

namespace Remedy

namespace Diff

variable {lines : LinePair}

/-! ## Lines in common -/

/-- The lines that are counted downwards are equal. -/
theorem same_of_lt_commonDown {i j room k : Nat} (h : k < lines.commonDown i j room) :
    lines.same (i + k) (j + k) := by
  induction room generalizing i j k with
  | zero => exact absurd h (Nat.not_lt_zero k)
  | succ room ih =>
    rw [LinePair.commonDown] at h
    split at h
    case isFalse => exact absurd h (Nat.not_lt_zero k)
    case isTrue hsame =>
      cases k with
      | zero => exact hsame
      | succ k =>
        have hk := ih (Nat.lt_of_succ_lt_succ h)
        rw [show i + (k + 1) = i + 1 + k by omega, show j + (k + 1) = j + 1 + k by omega]
        exact hk

theorem commonDown_le (i j room : Nat) : lines.commonDown i j room ≤ room := by
  induction room generalizing i j with
  | zero => exact le_rfl
  | succ room ih =>
    rw [LinePair.commonDown]
    split
    · exact Nat.succ_le_succ (ih (i + 1) (j + 1))
    · exact Nat.zero_le _

/-- The count stops short of its room only where lines differ. -/
theorem not_same_commonDown {i j room : Nat} (h : lines.commonDown i j room < room) :
    ¬ lines.same (i + lines.commonDown i j room) (j + lines.commonDown i j room) := by
  induction room generalizing i j with
  | zero => exact absurd h (Nat.not_lt_zero _)
  | succ room ih =>
    rw [LinePair.commonDown] at h ⊢
    split at h
    case isFalse hsame =>
      rw [if_neg hsame]
      exact hsame
    case isTrue hsame =>
      rw [if_pos hsame]
      have hrest := ih (Nat.lt_of_succ_lt_succ h)
      rw [show i + (lines.commonDown (i + 1) (j + 1) room + 1) =
          i + 1 + lines.commonDown (i + 1) (j + 1) room by omega,
        show j + (lines.commonDown (i + 1) (j + 1) room + 1) =
          j + 1 + lines.commonDown (i + 1) (j + 1) room by omega]
      exact hrest

/-- The lines that are counted upwards are equal. -/
theorem same_of_lt_commonUp {i j room k : Nat} (h : k < lines.commonUp i j room) :
    lines.same (i - 1 - k) (j - 1 - k) := by
  induction room generalizing i j k with
  | zero => exact absurd h (Nat.not_lt_zero k)
  | succ room ih =>
    rw [LinePair.commonUp] at h
    split at h
    case isFalse => exact absurd h (Nat.not_lt_zero k)
    case isTrue hsame =>
      cases k with
      | zero => exact hsame
      | succ k =>
        have hk := ih (Nat.lt_of_succ_lt_succ h)
        rw [show i - 1 - (k + 1) = i - 1 - 1 - k by omega,
          show j - 1 - (k + 1) = j - 1 - 1 - k by omega]
        exact hk

theorem commonUp_le (i j room : Nat) : lines.commonUp i j room ≤ room := by
  induction room generalizing i j with
  | zero => exact le_rfl
  | succ room ih =>
    rw [LinePair.commonUp]
    split
    · exact Nat.succ_le_succ (ih (i - 1) (j - 1))
    · exact Nat.zero_le _

theorem not_same_commonUp {i j room : Nat} (h : lines.commonUp i j room < room) :
    ¬ lines.same (i - 1 - lines.commonUp i j room) (j - 1 - lines.commonUp i j room) := by
  induction room generalizing i j with
  | zero => exact absurd h (Nat.not_lt_zero _)
  | succ room ih =>
    rw [LinePair.commonUp] at h ⊢
    split at h
    case isFalse hsame =>
      rw [if_neg hsame]
      exact hsame
    case isTrue hsame =>
      rw [if_pos hsame]
      have hrest := ih (Nat.lt_of_succ_lt_succ h)
      rw [show i - 1 - (lines.commonUp (i - 1) (j - 1) room + 1) =
          i - 1 - 1 - lines.commonUp (i - 1) (j - 1) room by omega,
        show j - 1 - (lines.commonUp (i - 1) (j - 1) room + 1) =
          j - 1 - 1 - lines.commonUp (i - 1) (j - 1) room by omega]
      exact hrest

/-! ## Division -/

/-- The old and the new lines of a region are equal, one by one. -/
def Equal (lines : LinePair) (r : Region) : Prop :=
  r.oldLength = r.newLength ∧ ∀ k < r.oldLength, lines.same (r.oldStart + k) (r.newStart + k)

/-- What equal lines at both ends leave of a region is nothing: the region
is equal. -/
theorem equal_of_inner {r : Region} (hold : (r.inner lines).oldLength = 0)
    (hnew : (r.inner lines).newLength = 0) : Equal lines r := by
  have hfront : r.front lines ≤ min r.oldLength r.newLength := commonDown_le _ _ _
  have hback : r.back lines ≤ min (r.oldLength - r.front lines) (r.newLength - r.front lines) :=
    commonUp_le _ _ _
  simp only [Region.inner, Region.oldLength, Region.newLength] at hold hnew hfront hback
  refine ⟨by simp only [Region.oldLength, Region.newLength]; omega, fun k hk => ?_⟩
  simp only [Region.oldLength] at hk
  rcases Nat.lt_or_ge k (r.front lines) with hlt | hge
  · exact same_of_lt_commonDown hlt
  · -- counted from the end, the line is one of the last ones
    have hcounted : r.oldStop - 1 - (r.oldStart + k) < r.back lines := by omega
    have hsame := same_of_lt_commonUp hcounted
    rwa [show r.oldStop - 1 - (r.oldStop - 1 - (r.oldStart + k)) = r.oldStart + k by omega,
      show r.newStop - 1 - (r.oldStop - 1 - (r.oldStart + k)) = r.newStart + k by omega] at hsame

/-- The first lines of what is left differ. -/
theorem not_same_first {r : Region} (hold : 0 < (r.inner lines).oldLength)
    (hnew : 0 < (r.inner lines).newLength) :
    ¬ lines.same (r.inner lines).oldStart (r.inner lines).newStart := by
  have hroom : r.front lines < min r.oldLength r.newLength := by
    simp only [Region.inner, Region.oldLength, Region.newLength] at hold hnew ⊢
    omega
  exact not_same_commonDown hroom

/-- And so do its last lines. -/
theorem not_same_last {r : Region} (hold : 0 < (r.inner lines).oldLength)
    (hnew : 0 < (r.inner lines).newLength) :
    ¬ lines.same ((r.inner lines).oldStop - 1) ((r.inner lines).newStop - 1) := by
  have hroom : r.back lines <
      min (r.oldLength - r.front lines) (r.newLength - r.front lines) := by
    simp only [Region.inner, Region.oldLength, Region.newLength] at hold hnew ⊢
    omega
  have hdiffer := not_same_commonUp hroom
  simp only [Region.inner]
  rwa [Nat.sub_right_comm r.oldStop, Nat.sub_right_comm r.newStop]

/-- **No division of a region is equal on both sides** if its first lines
differ and its last lines differ. -/
theorem not_equal_parts {r : Region} {x y : Nat} (hold : 0 < r.oldLength)
    (hfirst : ¬ lines.same r.oldStart r.newStart)
    (hlast : ¬ lines.same (r.oldStop - 1) (r.newStop - 1))
    (hupper : Equal lines ⟨r.oldStart, x, r.newStart, y⟩)
    (hlower : Equal lines ⟨x, r.oldStop, y, r.newStop⟩) : False := by
  obtain ⟨hupLen, hupSame⟩ := hupper
  obtain ⟨hlowLen, hlowSame⟩ := hlower
  simp only [Region.oldLength, Region.newLength] at hold hupLen hupSame hlowLen hlowSame
  rcases Nat.eq_zero_or_pos (x - r.oldStart) with hup | hup
  · rcases Nat.eq_zero_or_pos (r.oldStop - x) with hlow | hlow
    · omega
    · have hsame := hlowSame (r.oldStop - x - 1) (by omega)
      rw [show x + (r.oldStop - x - 1) = r.oldStop - 1 by omega,
        show y + (r.oldStop - x - 1) = r.newStop - 1 by omega] at hsame
      exact hlast hsame
  · exact hfirst (hupSame 0 hup)

/-- An edit script that only keeps. -/
def KeepsAll (script : List Edit) : Prop := ∀ e ∈ script, e.kind = .keep

theorem not_keepsAll_replaced (r : Region) : ¬ KeepsAll (replaced r) := by
  intro h
  exact absurd (h _ List.mem_cons_self) (by simp)

/-- **A region whose script only keeps is equal.** -/
theorem equal_of_conquer (fuel : Nat) (r : Region) (f b : Frontier)
    (h : KeepsAll (conquer lines fuel r f b).1) : Equal lines r := by
  induction fuel generalizing r f b with
  | zero => exact absurd h (not_keepsAll_replaced r)
  | succ fuel ih =>
    rw [conquer] at h
    have hmiddle := fun e he => h e (List.mem_append_left _ (List.mem_append_right _ he))
    dsimp only at hmiddle
    rcases Nat.eq_zero_or_pos (r.inner lines).oldLength with hold | hold
    · rcases Nat.eq_zero_or_pos (r.inner lines).newLength with hnew | hnew
      · exact equal_of_inner hold hnew
      · rw [if_neg (by omega), if_neg (by omega), if_pos hold] at hmiddle
        exact absurd (hmiddle _ List.mem_cons_self) (by simp)
    · rcases Nat.eq_zero_or_pos (r.inner lines).newLength with hnew | hnew
      · rw [if_neg (by omega), if_pos hnew] at hmiddle
        exact absurd (hmiddle _ List.mem_cons_self) (by simp)
      · rw [if_neg (by omega), if_neg (by omega), if_neg (by omega)] at hmiddle
        split at hmiddle
        case h_1 x y hmeet =>
          have hupper := ih _ _ _ fun e he => hmiddle e (List.mem_append_left _ he)
          have hlower := ih _ _ _ fun e he => hmiddle e (List.mem_append_right _ he)
          exact (not_equal_parts hold (not_same_first hold hnew) (not_same_last hold hnew)
            hupper hlower).elim
        case h_2 =>
          exact absurd hmiddle (not_keepsAll_replaced _)

/-! ## Tidying -/

/-- An edit that moves up keeps its kind, also where it is joined with one
ahead of it. -/
theorem kind_up? {s t : Spot} (h : s.up? lines = some t) : t.edit.kind = s.edit.kind := by
  rw [Spot.up?] at h
  split at h
  · cases h
  · dsimp only at h
    split at h
    · split at h
      · cases h; rfl
      · split at h <;> cases h
        rfl
    · split at h <;> cases h
      · assumption
      · rfl

theorem kind_down? {s t : Spot} (h : s.down? lines = some t) : t.edit.kind = s.edit.kind := by
  rw [Spot.down?] at h
  split at h
  · cases h
  · dsimp only at h
    split at h
    · split at h
      · cases h; rfl
      · split at h <;> cases h
        rfl
    · split at h <;> cases h <;> rfl

theorem kind_repeated {move : Spot → Option Spot}
    (hmove : ∀ s t, move s = some t → t.edit.kind = s.edit.kind) (fuel : Nat) (s : Spot) :
    (Spot.repeated move fuel s).edit.kind = s.edit.kind := by
  induction fuel generalizing s with
  | zero => rfl
  | succ fuel ih =>
    rw [Spot.repeated]
    split
    case h_1 next hnext => rw [ih next, hmove s next hnext]
    case h_2 => rfl

/-- **Settling edits of a kind that alters loses no alteration.** -/
theorem keepsAll_of_settle {kind : EditKind} (hkind : kind ≠ .keep) (bound fuel : Nat)
    (ahead behind : List Edit) (h : KeepsAll (settle lines kind bound fuel ahead behind)) :
    KeepsAll ahead ∧ KeepsAll behind := by
  induction fuel generalizing ahead behind with
  | zero =>
    rw [settle] at h
    exact ⟨fun e he => h e (List.mem_append_left _ (List.mem_reverse.2 he)),
      fun e he => h e (List.mem_append_right _ he)⟩
  | succ fuel ih =>
    cases behind with
    | nil =>
      rw [settle] at h
      exact ⟨fun e he => h e (List.mem_reverse.2 he), fun e he => absurd he List.not_mem_nil⟩
    | cons e behind =>
      rw [settle] at h
      split at h
      case isTrue hk =>
        -- the edit is moved, and moved it still alters
        have hmoved := (ih _ _ h).1 _ List.mem_cons_self
        rw [kind_repeated (fun s t => kind_down?), kind_repeated (fun s t => kind_up?)] at hmoved
        exact absurd (hk.symm.trans hmoved) hkind
      case isFalse =>
        obtain ⟨hahead, hbehind⟩ := ih _ _ h
        refine ⟨fun a ha => hahead a (List.mem_cons_of_mem e ha), fun a ha => ?_⟩
        rcases List.mem_cons.1 ha with rfl | hmem
        · exact hahead a List.mem_cons_self
        · exact hbehind a hmem

/-- **A tidy script that only keeps was one before.** -/
theorem keepsAll_of_compact (script : List Edit) (h : KeepsAll (compact lines script)) :
    KeepsAll script := by
  have hdeletions := (keepsAll_of_settle (by decide) _ _ _ _ h).2
  exact (keepsAll_of_settle (by decide) _ _ _ _ hdeletions).2

/-! ## Steps and hunks -/

/-- What waits to be written as a change does alter. -/
def Pending.Alters (p : Pending) : Prop :=
  (∀ d, p.deleted = some d → d.kind ≠ .keep) ∧ ∀ i, p.inserted = some i → i.kind ≠ .keep

/-- Nothing waits where the change to be written only keeps. -/
theorem eq_none_of_change {p : Pending} (hp : p.Alters) (h : ∀ s ∈ p.change, s.isKept) :
    p.deleted = none ∧ p.inserted = none := by
  obtain ⟨kept, deleted, inserted⟩ := p
  obtain ⟨hdel, hins⟩ := hp
  cases deleted with
  | none =>
    cases inserted with
    | none => exact ⟨rfl, rfl⟩
    | some i =>
      have hk : (i.kind == .keep) = true := h _ List.mem_cons_self
      exact absurd (eq_of_beq hk) (hins i rfl)
  | some d =>
    cases inserted with
    | none =>
      have hk : (d.kind == .keep) = true := h _ List.mem_cons_self
      exact absurd (eq_of_beq hk) (hdel d rfl)
    | some i => exact absurd (h _ List.mem_cons_self) (by simp)

/-- An edit that joins one of its kind alters if it did on its own. -/
theorem alters_joined {before : Option Edit} {e d : Edit} (he : e.kind ≠ .keep)
    (hbefore : ∀ b, before = some b → b.kind ≠ .keep) (h : Pending.joined before e = some d) :
    d.kind ≠ .keep := by
  cases before with
  | none =>
    cases h
    exact he
  | some b =>
    cases h
    exact hbefore b rfl

/-- **Steps that all keep come from a script that only keeps.** -/
theorem keepsAll_of_stepsFrom (script : List Edit) (p : Pending) (hp : p.Alters)
    (h : ∀ s ∈ stepsFrom p script, s.isKept) :
    KeepsAll script ∧ p.deleted = none ∧ p.inserted = none := by
  induction script generalizing p with
  | nil =>
    rw [stepsFrom] at h
    exact ⟨fun e he => absurd he List.not_mem_nil,
      eq_none_of_change hp fun s hs => h s (List.mem_append_right _ hs)⟩
  | cons e rest ih =>
    rw [stepsFrom] at h
    split at h
    case h_1 hkeep =>
      have hrest := (ih _ ⟨by simp, by simp⟩ fun s hs => h s (List.mem_append_right _ hs)).1
      refine ⟨fun a ha => ?_, eq_none_of_change hp fun s hs => h s (List.mem_append_left _ hs)⟩
      rcases List.mem_cons.1 ha with rfl | hmem
      · exact hkeep
      · exact hrest a hmem
    case h_2 hdelete =>
      have hjoined : (⟨none, Pending.joined p.deleted e, p.inserted⟩ : Pending).Alters :=
        ⟨fun d hd => alters_joined (by simp [hdelete]) hp.1 hd, hp.2⟩
      have hnone := (ih _ hjoined fun s hs => h s (List.mem_append_right _ hs)).2.1
      cases hdel : p.deleted <;> simp [Pending.joined, hdel] at hnone
    case h_3 hinsert =>
      have hjoined : (⟨none, p.deleted, Pending.joined p.inserted e⟩ : Pending).Alters :=
        ⟨hp.1, fun i hi => alters_joined (by simp [hinsert]) hp.2 hi⟩
      have hnone := (ih _ hjoined fun s hs => h s (List.mem_append_right _ hs)).2.2
      cases hins : p.inserted <;> simp [Pending.joined, hins] at hnone

/-- **Lines all of which are kept are the same.** -/
theorem eq_of_steps (h : ∀ s ∈ steps lines, s.isKept) : lines.old = lines.new := by
  have hnone : Pending.none.Alters := ⟨by simp [Pending.none], by simp [Pending.none]⟩
  have htidy := (keepsAll_of_stepsFrom _ Pending.none hnone h).1
  obtain ⟨hsize, hsame⟩ := equal_of_conquer _ _ _ _ (keepsAll_of_compact _ htidy)
  simp only [Region.oldLength, Region.newLength, Nat.sub_zero, Nat.zero_add] at hsize hsame
  apply Array.ext hsize
  intro k hold hnew
  have hk := hsame k hold
  rw [LinePair.same, Array.getElem?_eq_getElem hold, Array.getElem?_eq_getElem hnew] at hk
  exact eq_of_beq hk

/-- Joining changes leaves at least one. -/
theorem joinChanges_ne_nil {changes : List DiffStep} (h : changes ≠ []) :
    joinChanges changes ≠ [] := by
  induction changes using joinChanges.induct with
  | case1 a b rest htouch ih =>
    rw [joinChanges, if_pos htouch]
    exact ih (by simp)
  | case2 a b rest hapart ih =>
    rw [joinChanges, if_neg hapart]
    simp
  | case3 changes hshort =>
    rw [joinChanges]
    · exact h
    · exact hshort

/-- **Every difference is seen**: texts that differ have a hunk. -/
theorem hunks_ne_nil (name : String) {original transformed : String}
    (hne : original ≠ transformed) : (ofTexts name original transformed).hunks ≠ [] := by
  intro hnil
  rw [ofTexts, ofTextsBy, if_neg hne] at hnil
  have hnone : (steps (Differ.byScript.pair original transformed)).filter (fun s => !s.isKept) =
      [] := by
    by_contra hsome
    exact joinChanges_ne_nil hsome (List.map_eq_nil_iff.1 hnil)
  have hlines : linesOf original = linesOf transformed :=
    eq_of_steps fun s hs => by simpa using List.filter_eq_nil_iff.1 hnone s hs
  apply hne
  rw [← join_linesOf original, hlines, join_linesOf]

/-- **Nothing changed where no hunk is.** -/
theorem hunks_eq_nil_iff (name original transformed : String) :
    (ofTexts name original transformed).hunks = [] ↔ original = transformed := by
  constructor
  · intro hnil
    by_contra hne
    exact hunks_ne_nil name hne hnil
  · intro heq
    rw [ofTexts, ofTextsBy, if_pos heq]

end Diff

end Remedy
