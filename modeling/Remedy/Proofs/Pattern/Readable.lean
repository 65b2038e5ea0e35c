import Mathlib
import Remedy.Pattern.Glob
import Remedy.Proofs.Failing
import Remedy.Proofs.Runs
/-!
# Patterns that can be read

Which texts are patterns is told by a grammar (`Glob.Readable`), without the
tokens that are made of them and without the place of an error: a set is closed,
and two stars make up a component. A text is read if and only if the grammar has
it (`Glob.isOk_parse_iff`). So a `./` ahead of a pattern and a `/` behind it
decide nothing (`Glob.readable_current`, `Glob.readable_slash`).
-/

namespace Remedy

namespace Glob

variable {opens : Bool} {c : Char} {cs rest after : List Char} {token : GlobToken}
variable {start size fuel : Nat} {before : Option Char} {done : List GlobToken}

/-- **A set stands ahead** of characters, behind its opening bracket: it has one
character at least, and then none that closes it. -/
inductive SetAhead : List Char → List Char → Prop where
  | within {c : Char} {inside after : List Char} : c ≠ '!' → ']' ∉ inside →
      SetAhead (c :: (inside ++ ']' :: after)) after
  | except {c : Char} {inside after : List Char} : ']' ∉ inside →
      SetAhead ('!' :: c :: (inside ++ ']' :: after)) after

/-- **A text is a pattern**, where two stars may stand at its start or not. -/
inductive Readable : Bool → List Char → Prop where
  | nil {opens : Bool} : Readable opens []
  | literal {opens : Bool} {c : Char} {rest : List Char} : c ≠ '?' → c ≠ '*' → c ≠ '[' →
      Readable (c == '/') rest → Readable opens (c :: rest)
  | anyChar {opens : Bool} {rest : List Char} : Readable false rest → Readable opens ('?' :: rest)
  | set {opens : Bool} {rest after : List Char} : SetAhead rest after → Readable false after →
      Readable opens ('[' :: rest)
  | star {opens : Bool} {rest : List Char} : rest.head? ≠ some '*' → Readable false rest →
      Readable opens ('*' :: rest)
  | allDirectories : Readable true ['*', '*']
  | directories {rest : List Char} : Readable true rest →
      Readable true ('*' :: '*' :: '/' :: rest)

/-- What stands ahead lets two stars start a component. -/
def opensComponent (before : Option Char) : Bool := before.all (· == '/')

/-! ### Stars -/

theorem any_ne_slash (before : Option Char) :
    before.any (· ≠ '/') = !opensComponent before := by
  cases before with
  | none => rfl
  | some c => by_cases hc : c = '/' <;> simp [opensComponent, hc]

/-- **What a run of stars is read as**, behind its first star. -/
theorem parseStars_eq_ok_iff : parseStars start before rest = .ok (token, after) ↔
    (rest.head? ≠ some '*' ∧ .anySequence = token ∧ rest = after) ∨
      (opensComponent before ∧ .anyDirectories = token ∧
        (rest = ['*'] ∧ [] = after ∨ rest = '*' :: '/' :: after)) := by
  rw [parseStars, any_ne_slash]
  cases rest with
  | nil => simp
  | cons c rest =>
    by_cases hstar : c = '*'
    case neg => simp [hstar]
    case pos =>
      subst hstar
      cases rest with
      | nil => cases opensComponent before <;> simp
      | cons d rest =>
        by_cases hmore : d = '*'
        · simp [hmore]
        · by_cases hslash : d = '/'
          · cases opensComponent before <;> simp [hslash]
          · cases opensComponent before <;> simp [hmore, hslash]

/-! ### The grammar -/

theorem readable_anyChar_iff : Readable opens ('?' :: rest) ↔ Readable false rest := by
  refine ⟨fun h => ?_, .anyChar⟩
  cases h with
  | literal hmark => exact absurd rfl hmark
  | anyChar h => exact h

theorem readable_set_iff : Readable opens ('[' :: rest) ↔
    ∃ after, SetAhead rest after ∧ Readable false after := by
  refine ⟨fun h => ?_, fun ⟨_, hset, h⟩ => .set hset h⟩
  cases h with
  | literal _ _ hbracket => exact absurd rfl hbracket
  | set hset h => exact ⟨_, hset, h⟩

theorem readable_literal_iff (hmark : c ≠ '?') (hstar : c ≠ '*') (hbracket : c ≠ '[') :
    Readable opens (c :: rest) ↔ Readable (c == '/') rest := by
  refine ⟨fun h => ?_, .literal hmark hstar hbracket⟩
  cases h with
  | literal _ _ _ h => exact h
  | anyChar => exact absurd rfl hmark
  | set => exact absurd rfl hbracket
  | star => exact absurd rfl hstar
  | allDirectories => exact absurd rfl hstar
  | directories => exact absurd rfl hstar

theorem readable_star_iff : Readable opens ('*' :: rest) ↔
    (rest.head? ≠ some '*' ∧ Readable false rest) ∨
      (opens ∧ (rest = ['*'] ∨ ∃ after, rest = '*' :: '/' :: after ∧ Readable true after)) := by
  constructor
  · intro h
    cases h with
    | literal _ hstar => exact absurd rfl hstar
    | star hone h => exact .inl ⟨hone, h⟩
    | allDirectories => exact .inr ⟨rfl, .inl rfl⟩
    | directories h => exact .inr ⟨rfl, .inr ⟨_, rfl, h⟩⟩
  · rintro (⟨hone, h⟩ | ⟨rfl, rfl | ⟨after, rfl, h⟩⟩)
    · exact .star hone h
    · exact .allDirectories
    · exact .directories h

/-- What is read as one star lets no two stars follow, -/
theorem opensComponent_star (rest : List Char) : opensComponent
    (some ((rest.take (rest.length - rest.length)).getLast?.getD '*')) = false := by
  rw [Nat.sub_self]
  rfl

/-- and what is read with a slash behind its stars does. -/
theorem opensComponent_directories (after : List Char) : opensComponent (some
    ((('*' :: '/' :: after).take (('*' :: '/' :: after).length - after.length)).getLast?.getD
      '*')) = true := by
  have htwo : ('*' :: '/' :: after).length - after.length = 2 := by
    rw [List.length_cons, List.length_cons, Nat.add_assoc, Nat.add_sub_cancel_left]
  rw [htwo]
  rfl

/-- What follows a set is shorter than what the set stands in. -/
theorem SetAhead.length_lt (h : SetAhead rest after) : after.length < rest.length := by
  cases h <;> simp <;> omega

/-- What is read up to a closing bracket holds none. -/
theorem exists_inside (h : rest.dropWhile (· ≠ ']') = ']' :: after) :
    ∃ inside, ']' ∉ inside ∧ rest = inside ++ ']' :: after := by
  refine ⟨rest.takeWhile (· ≠ ']'), fun hmem => ?_, ?_⟩
  · simpa using List.mem_takeWhile_imp hmem
  · rw [← h, List.takeWhile_append_dropWhile]

theorem dropWhile_inside {inside : List Char} (h : ']' ∉ inside) :
    (inside ++ ']' :: after).dropWhile (· ≠ ']') = ']' :: after :=
  dropWhile_run (fun c hc => decide_eq_true fun heq => h (heq ▸ hc)) (by simp)

/-- **A set is read** where one stands. -/
theorem exists_parseSet?_iff :
    (∃ token, parseSet? rest = some (token, after)) ↔ SetAhead rest after := by
  unfold parseSet?
  simp only [drop_length_takeWhile]
  constructor
  · rintro ⟨token, h⟩
    split at h
    case h_1 c rest =>
      split at h
      case h_2 => cases h
      case h_1 hbehind =>
        obtain ⟨-, rfl⟩ := Prod.mk.inj (Option.some.inj h)
        obtain ⟨inside, hinside, rfl⟩ := exists_inside hbehind
        exact .except hinside
    case h_2 => cases h
    case h_3 c rest hother hlone =>
      split at h
      case h_2 => cases h
      case h_1 hbehind =>
        obtain ⟨-, rfl⟩ := Prod.mk.inj (Option.some.inj h)
        obtain ⟨inside, hinside, rfl⟩ := exists_inside hbehind
        refine .within ?_ hinside
        -- a mark with characters behind it is read as one
        rintro rfl
        cases inside with
        | nil => exact hother _ _ rfl rfl
        | cons d inside => exact hother _ _ rfl rfl
    case h_4 => cases h
  · rintro (⟨hmark, hinside⟩ | hinside)
    · split
      case h_1 heq => exact absurd (List.cons.inj heq).1 hmark
      case h_2 heq => exact absurd (List.cons.inj heq).1 hmark
      case h_3 heq =>
        obtain ⟨rfl, rfl⟩ := List.cons.inj heq
        rw [dropWhile_inside hinside]
        exact ⟨_, rfl⟩
      case h_4 heq => cases heq
    · simp only [dropWhile_inside hinside]
      exact ⟨_, rfl⟩

/-- **Reading goes on to the end** of what the grammar has, and of nothing
else. -/
theorem isOk_parseFrom_iff (hfuel : rest.length < fuel) :
    (parseFrom size done before rest fuel).isOk ↔ Readable (opensComponent before) rest := by
  induction fuel generalizing done before rest with
  | zero => cases hfuel
  | succ fuel ih =>
    unfold parseFrom
    split
    case h_1 => exact iff_of_true rfl .nil
    case h_2 rest =>
      rw [ih (Nat.lt_of_succ_lt_succ hfuel), readable_anyChar_iff]
      rfl
    case h_3 rest =>
      have hshorter : rest.length < fuel := Nat.lt_of_succ_lt_succ hfuel
      rw [isOk_bind_iff, readable_star_iff]
      constructor
      · rintro ⟨⟨token, after⟩, hstars, hrest⟩
        rcases parseStars_eq_ok_iff.1 hstars with ⟨hone, -, rfl⟩ | ⟨hopens, -, ⟨rfl, rfl⟩ | rfl⟩
        · rw [ih hshorter, opensComponent_star] at hrest
          exact .inl ⟨hone, hrest⟩
        · exact .inr ⟨hopens, .inl rfl⟩
        · rw [ih (by simp at hshorter; omega), opensComponent_directories] at hrest
          exact .inr ⟨hopens, .inr ⟨after, rfl, hrest⟩⟩
      · rintro (⟨hone, hrest⟩ | ⟨hopens, rfl | ⟨after, rfl, hrest⟩⟩)
        · refine ⟨_, parseStars_eq_ok_iff.2 (.inl ⟨hone, rfl, rfl⟩), ?_⟩
          rwa [ih hshorter, opensComponent_star]
        · refine ⟨_, parseStars_eq_ok_iff.2 (.inr ⟨hopens, rfl, .inl ⟨rfl, rfl⟩⟩), ?_⟩
          exact (ih (Nat.lt_of_le_of_lt (Nat.zero_le _) hshorter)).2 .nil
        · refine ⟨_, parseStars_eq_ok_iff.2 (.inr ⟨hopens, rfl, .inr rfl⟩), ?_⟩
          rwa [ih (by simp at hshorter; omega), opensComponent_directories]
    case h_4 rest =>
      rw [readable_set_iff]
      split
      case h_1 token after hread =>
        have hset := exists_parseSet?_iff.1 ⟨token, hread⟩
        rw [ih (hset.length_lt.trans (Nat.lt_of_succ_lt_succ hfuel))]
        constructor
        · intro hrest
          exact ⟨after, hset, hrest⟩
        · rintro ⟨after', hset', hrest⟩
          obtain ⟨token', hread'⟩ := exists_parseSet?_iff.2 hset'
          obtain ⟨-, rfl⟩ := Prod.mk.inj (Option.some.inj (hread.symm.trans hread'))
          exact hrest
      case h_2 hnone =>
        refine iff_of_false Bool.false_ne_true ?_
        rintro ⟨after, hset, -⟩
        obtain ⟨token, hread⟩ := exists_parseSet?_iff.2 hset
        cases hnone.symm.trans hread
    case h_5 c rest hmark hstar hbracket =>
      rw [ih (Nat.lt_of_succ_lt_succ hfuel),
        readable_literal_iff (by simpa using hmark) (by simpa using hstar)
          (by simpa using hbracket)]
      rfl

/-- **A text is read as a pattern** if and only if the grammar has it. -/
theorem isOk_parse_iff {text : String} : (parse text).isOk ↔ Readable true text.toList := by
  have hread := @isOk_parseFrom_iff text.toList text.toList.length (text.toList.length + 1) none []
    (Nat.lt_succ_self _)
  rw [parse, ← show opensComponent none = true from rfl, ← hread]
  cases parseFrom text.toList.length [] none text.toList (text.toList.length + 1) <;> rfl

/-! ### The ends of a pattern -/

/-- **A `./` ahead decides nothing**, -/
theorem readable_current (h : opens = true) :
    Readable opens ('.' :: '/' :: cs) ↔ Readable opens cs := by
  rw [readable_literal_iff (by decide) (by decide) (by decide),
    readable_literal_iff (by decide) (by decide) (by decide), h]
  rfl

/-- A set is not closed by a slash, so the slash at an end follows it. -/
theorem SetAhead.of_append_slash (h : SetAhead (cs ++ ['/']) after) :
    ∃ after', SetAhead cs after' ∧ after = after' ++ ['/'] := by
  generalize hds : cs ++ ['/'] = ds at h
  have hlast : ∀ front after : List Char, cs ++ ['/'] = front ++ ']' :: after →
      ∃ after', after = after' ++ ['/'] ∧ cs = front ++ ']' :: after' := by
    intro front after heq
    rcases List.eq_nil_or_concat after with rfl | ⟨after', d, rfl⟩
    · exact absurd (List.append_inj_right' heq rfl) (by decide)
    · rw [List.concat_eq_append, ← List.cons_append, ← List.append_assoc] at heq
      obtain ⟨hcs, hd⟩ := List.append_inj' heq rfl
      rw [List.concat_eq_append, ← hd]
      exact ⟨after', rfl, hcs⟩
  cases h with
  | @within c inside after hmark hinside =>
    obtain ⟨after', rfl, rfl⟩ := hlast (c :: inside) _ hds
    exact ⟨after', .within hmark hinside, rfl⟩
  | @except c inside after hinside =>
    obtain ⟨after', rfl, rfl⟩ := hlast ('!' :: c :: inside) _ hds
    exact ⟨after', .except hinside, rfl⟩

theorem SetAhead.append (h : SetAhead rest after) (more : List Char) :
    SetAhead (rest ++ more) (after ++ more) := by
  cases h with
  | within hmark hinside =>
    rw [List.cons_append, List.append_assoc, List.cons_append]
    exact .within hmark hinside
  | except hinside =>
    rw [List.cons_append, List.cons_append, List.append_assoc, List.cons_append]
    exact .except hinside

/-- **and neither does a `/` behind it.** -/
theorem readable_slash : Readable opens (cs ++ ['/']) ↔ Readable opens cs := by
  constructor
  · intro h
    generalize hds : cs ++ ['/'] = ds at h
    -- the grammar takes the slash or what stands ahead of it
    induction h generalizing cs with
    | nil => exact absurd hds (List.concat_ne_nil '/' cs)
    | literal hmark hstar hbracket _ ih =>
      rcases List.append_eq_cons_iff.1 hds with ⟨rfl, -⟩ | ⟨cs, rfl, rfl⟩
      · exact .nil
      · exact .literal hmark hstar hbracket (ih rfl)
    | anyChar _ ih =>
      rcases List.append_eq_cons_iff.1 hds with ⟨rfl, -⟩ | ⟨cs, rfl, rfl⟩
      · exact .nil
      · exact .anyChar (ih rfl)
    | set hset _ ih =>
      rcases List.append_eq_cons_iff.1 hds with ⟨rfl, -⟩ | ⟨cs, rfl, rfl⟩
      · exact .nil
      · obtain ⟨after, hset', rfl⟩ := hset.of_append_slash
        exact .set hset' (ih rfl)
    | star hone _ ih =>
      rcases List.append_eq_cons_iff.1 hds with ⟨rfl, -⟩ | ⟨cs, rfl, rfl⟩
      · exact .nil
      · refine .star (fun hstar => hone ?_) (ih rfl)
        rw [List.head?_append, hstar, Option.some_or]
    | allDirectories =>
      have hlast := congrArg List.getLast? hds
      rw [List.getLast?_concat] at hlast
      cases hlast
    | directories _ ih =>
      rcases List.append_eq_cons_iff.1 hds with ⟨rfl, -⟩ | ⟨cs, rfl, hstar⟩
      · exact .nil
      · rcases List.append_eq_cons_iff.1 hstar.symm with ⟨rfl, hslash⟩ | ⟨cs, rfl, hslash⟩
        · cases hslash
        · rcases List.append_eq_cons_iff.1 hslash.symm with ⟨rfl, -⟩ | ⟨cs, rfl, rfl⟩
          · exact .allDirectories
          · exact .directories (ih rfl)
  · intro h
    induction h with
    | nil => exact .literal (by decide) (by decide) (by decide) .nil
    | literal hmark hstar hbracket _ ih => exact .literal hmark hstar hbracket ih
    | anyChar _ ih => exact .anyChar ih
    | set hset _ ih => exact .set (hset.append ['/']) ih
    | @star opens rest hone _ ih =>
      refine .star ?_ ih
      cases rest with
      | nil => decide
      | cons c rest => exact hone
    | allDirectories => exact .directories .nil
    | directories _ ih => exact .directories ih

end Glob

end Remedy
