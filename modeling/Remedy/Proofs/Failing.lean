import Mathlib.Data.List.Basic
/-!
# Computations that may fail

What is known of the parts of a computation that came to a value.
-/

namespace Remedy

/-- **Both steps of a computation succeed** if it does. -/
theorem exists_of_bind_eq_ok {ε α β : Type} {x : Except ε α} {next : α → Except ε β} {b : β}
    (h : x >>= next = .ok b) : ∃ a, x = .ok a ∧ next a = .ok b := by
  cases x with
  | error e => cases h
  | ok a => exact ⟨a, rfl, h⟩

theorem exists_of_isOk {ε α : Type} {x : Except ε α} (h : x.isOk) : ∃ a, x = .ok a := by
  cases x with
  | error e => cases h
  | ok a => exact ⟨a, rfl⟩

theorem isOk_bind_iff {ε α β : Type} {x : Except ε α} {next : α → Except ε β} :
    (x >>= next).isOk ↔ ∃ a, x = .ok a ∧ (next a).isOk := by
  cases x with
  | error e => simp [bind, Except.bind, Except.isOk, Except.toBool]
  | ok a => simp [bind, Except.bind]

/-- **What is made of a list** is made of its members, each by a computation
that succeeds. -/
theorem exists_mem_of_mapM_eq_ok {ε α β : Type} {f : α → Except ε β} {as : List α} {bs : List β}
    (h : as.mapM f = .ok bs) : ∀ b ∈ bs, ∃ a ∈ as, f a = .ok b := by
  induction as generalizing bs with
  | nil =>
    cases h
    exact List.forall_mem_nil _
  | cons a as ih =>
    rw [List.mapM_cons] at h
    obtain ⟨b, hb, h⟩ := exists_of_bind_eq_ok h
    obtain ⟨bs', hbs, h⟩ := exists_of_bind_eq_ok h
    cases h
    refine List.forall_mem_cons.2 ⟨⟨a, List.mem_cons_self, hb⟩, fun b' hb' => ?_⟩
    obtain ⟨a', ha', hmade⟩ := ih hbs b' hb'
    exact ⟨a', List.mem_cons_of_mem a ha', hmade⟩

/-- A list is made something of if all of its members are. -/
theorem isOk_mapM_iff {ε α β : Type} {f : α → Except ε β} {as : List α} :
    (as.mapM f).isOk ↔ ∀ a ∈ as, (f a).isOk := by
  induction as with
  | nil => exact iff_of_true rfl (List.forall_mem_nil _)
  | cons a as ih =>
    rw [List.mapM_cons, List.forall_mem_cons, ← ih, isOk_bind_iff]
    cases f a with
    | error e => simp [Except.isOk, Except.toBool]
    | ok b =>
      cases as.mapM f <;>
        simp [Except.isOk, Except.toBool, bind, Except.bind, pure, Except.pure]

/-- Two computations that come to the same values. -/
theorem toOption_eq_of_iff {ε α : Type} {x y : Except ε α} (h : ∀ a, x = .ok a ↔ y = .ok a) :
    x.toOption = y.toOption := by
  cases x with
  | ok a => rw [(h a).1 rfl]
  | error e =>
    cases y with
    | ok a => cases (h a).2 rfl
    | error e => rfl

end Remedy
