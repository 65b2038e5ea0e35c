import Mathlib
/-!
# Runs at the start of a list

A reader takes the first members of a list as long as a test holds, and goes on
with the others. Where the list was put together from a run of members that pass
and others that begin with one that does not, these two are what the reader
finds (`takeWhile_run`, `dropWhile_run`), so there is one way to put it together
(`append_inj_of_class`).
-/

namespace Remedy

variable {α : Type} {p : α → Bool} {xs ys as bs : List α} {a : α}

/-- What is left of a list when its run is counted off. -/
theorem drop_length_takeWhile (p : α → Bool) (as : List α) :
    as.drop (as.takeWhile p).length = as.dropWhile p := by
  conv_lhs => arg 2; rw [← List.takeWhile_append_dropWhile (p := p) (l := as)]
  exact List.drop_left

/-- **The run is found** that a list was put together from, -/
theorem takeWhile_run (hxs : ∀ x ∈ xs, p x) (has : ∀ a ∈ as.head?, ¬ p a) :
    (xs ++ as).takeWhile p = xs := by
  rw [List.takeWhile_append_of_pos hxs]
  cases as with
  | nil => exact List.append_nil xs
  | cons a as => rw [List.takeWhile_cons_of_neg (has a rfl), List.append_nil]

/-- and so is what follows it. -/
theorem dropWhile_run (hxs : ∀ x ∈ xs, p x) (has : ∀ a ∈ as.head?, ¬ p a) :
    (xs ++ as).dropWhile p = as := by
  rw [← drop_length_takeWhile, takeWhile_run hxs has, List.drop_left]

/-- Two lists that are put together from values of a class and what follows
them are put together alike. -/
theorem append_inj_of_class (hxs : ∀ x ∈ xs, p x) (hys : ∀ y ∈ ys, p y)
    (has : ∀ a ∈ as.head?, ¬ p a) (hbs : ∀ b ∈ bs.head?, ¬ p b) (h : xs ++ as = ys ++ bs) :
    xs = ys ∧ as = bs := by
  have htaken := congrArg (List.takeWhile p) h
  have hdropped := congrArg (List.dropWhile p) h
  rw [takeWhile_run hxs has, takeWhile_run hys hbs] at htaken
  rw [dropWhile_run hxs has, dropWhile_run hys hbs] at hdropped
  exact ⟨htaken, hdropped⟩

/-- Two lists are cut alike at the first place of a value, -/
theorem append_inj_of_not_mem [DecidableEq α] (hxs : a ∉ xs) (hys : a ∉ ys)
    (h : xs ++ a :: as = ys ++ a :: bs) : xs = ys ∧ as = bs := by
  have hother : ∀ {cs : List α}, a ∉ cs → ∀ c ∈ cs, decide (c ≠ a) := fun hcs c hc =>
    decide_eq_true fun heq => hcs (heq ▸ hc)
  have hends : ∀ {cs : List α}, ∀ c ∈ (a :: cs).head?, ¬ decide (c ≠ a) := by
    rintro cs c hc
    cases hc
    simp
  obtain ⟨hfirst, hrest⟩ := append_inj_of_class (hother hxs) (hother hys) hends hends h
  exact ⟨hfirst, (List.cons.inj hrest).2⟩

/-- and at the last one. -/
theorem append_inj_of_not_mem_behind [DecidableEq α] (has : a ∉ as) (hbs : a ∉ bs)
    (h : xs ++ a :: as = ys ++ a :: bs) : xs = ys ∧ as = bs := by
  have hreverse : as.reverse ++ a :: xs.reverse = bs.reverse ++ a :: ys.reverse := by
    simpa using congrArg List.reverse h
  obtain ⟨hlast, hfirst⟩ := append_inj_of_not_mem (mt List.mem_reverse.1 has)
    (mt List.mem_reverse.1 hbs) hreverse
  exact ⟨List.reverse_injective hfirst, List.reverse_injective hlast⟩

end Remedy
