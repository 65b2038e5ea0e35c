import Mathlib
import Remedy.Java.Pattern
/-!
# What a pattern reads

`Reads` says which trees may come of which tokens, without the order in
which attempts are made and without fuel. What an attempt comes to is among
them (`reads_of_run`), so that a law of all that a grammar reads is a law of
its parser, and is proved by induction on the reading. Nothing is said the
other way round: an attempt takes the first alternative that fits.
-/

namespace Remedy

namespace Java

variable {Rule : Type} {grammar : Rule → Pattern Rule}

/-- **What a pattern may read**: trees that come of tokens, and the tokens
that follow. -/
inductive Reads (grammar : Rule → Pattern Rule) :
    Pattern Rule → List Token → Parts → List Token → Prop
  /-- A word or a sign stands for itself. -/
  | token {text : String} {t : Token} {rest : List Token} : t.isPlain → t.text = text →
      Reads grammar (.token text) (t :: rest) [(none, signTree t)] rest
  /-- Several tokens make up one sign. -/
  | adjacent {texts : List String} {input rest : List Token} {tree : Tree} :
      adjacentTokens texts (positionOf input) (positionOf input) "" input = some (tree, rest) →
      Reads grammar (.adjacent texts) input [(none, tree)] rest
  /-- One `>` is taken off a token. -/
  | closeAngle {input rest : List Token} {tree : Tree} : takeAngle input = some (tree, rest) →
      Reads grammar .closeAngle input [(none, tree)] rest
  /-- A token that is accepted becomes a leaf. -/
  | leaf {kind : Kind} {accepts : Token → Bool} {t : Token} {rest : List Token} : accepts t →
      Reads grammar (.leaf kind accepts) (t :: rest) [(none, .node kind t.span [])] rest
  /-- An empty sequence reads nothing. -/
  | seqNil {input : List Token} : Reads grammar (.seq []) input [] input
  /-- A sequence reads its first pattern and then the others. -/
  | seqCons {p : Pattern Rule} {ps : List (Pattern Rule)} {input mid rest : List Token}
      {parts more : Parts} : Reads grammar p input parts mid →
      Reads grammar (.seq ps) mid more rest →
      Reads grammar (.seq (p :: ps)) input (parts ++ more) rest
  /-- A choice reads one of its alternatives. -/
  | choice {p : Pattern Rule} {alternatives : List (Pattern Rule)} {input rest : List Token}
      {parts : Parts} : p ∈ alternatives → Reads grammar p input parts rest →
      Reads grammar (.choice alternatives) input parts rest
  /-- A repetition may stop at any time, -/
  | manyStop {p : Pattern Rule} {input : List Token} : Reads grammar (.many p) input [] input
  /-- or go on. -/
  | manyMore {p : Pattern Rule} {input mid rest : List Token} {parts more : Parts} :
      Reads grammar p input parts mid → Reads grammar (.many p) mid more rest →
      Reads grammar (.many p) input (parts ++ more) rest
  /-- Looking ahead reads nothing, -/
  | ahead {p : Pattern Rule} {input : List Token} : Reads grammar (.ahead p) input [] input
  /-- whatever it looks for. -/
  | notAhead {p : Pattern Rule} {input : List Token} : Reads grammar (.notAhead p) input [] input
  /-- A tree of one of some kinds is read as without the restriction. -/
  | only {kinds : List Kind} {p : Pattern Rule} {input rest : List Token} {role : Option Role}
      {tree : Tree} : tree.kind ∈ kinds → Reads grammar p input [(role, tree)] rest →
      Reads grammar (.only kinds p) input [(role, tree)] rest
  /-- A tree is put over the trees that were read. -/
  | node {kind : Kind} {p : Pattern Rule} {input rest : List Token} {parts : Parts} :
      Reads grammar p input parts rest →
      Reads grammar (.node kind p) input [(none, treeOver kind parts (positionOf input))] rest
  /-- The trees that were read get a role. -/
  | as {role : Role} {p : Pattern Rule} {input rest : List Token} {parts : Parts} :
      Reads grammar p input parts rest → Reads grammar (.as role p) input (label role parts) rest
  /-- A nested pattern reads its operand, -/
  | operand {first : Pattern Rule} {steps : List (Kind × List Kind × Option Role × Pattern Rule)}
      {input rest : List Token} {parts : Parts} : Reads grammar first input parts rest →
      Reads grammar (.nested first steps) input parts rest
  /-- and then continuations, each of which takes the tree so far in. -/
  | continuation {first p : Pattern Rule}
      {steps : List (Kind × List Kind × Option Role × Pattern Rule)}
      {input mid rest : List Token} {role part : Option Role} {tree : Tree} {kind : Kind}
      {kinds : List Kind} {parts : Parts} : (kind, kinds, part, p) ∈ steps →
      Reads grammar (.nested first steps) input [(role, tree)] mid →
      Reads grammar p mid parts rest →
      Reads grammar (.nested first steps) input
        [(role, treeOver kind ((part, tree) :: parts) 0)] rest
  /-- A rule reads what its pattern does. -/
  | rule {r : Rule} {input rest : List Token} {parts : Parts} :
      Reads grammar (grammar r) input parts rest → Reads grammar (.rule r) input parts rest

@[simp] theorem Attempt.result_after (a : Attempt) (reach : Nat) :
    (a.after reach).result = a.result := rfl

@[simp] theorem Attempt.result_fails (reach : Nat) : (Attempt.fails reach).result = none := rfl

/-- **With a given fuel, attempts come to what is read.** -/
structure Faithful (grammar : Rule → Pattern Rule) (fuel : Nat) : Prop where
  run : ∀ {p input parts rest}, (run grammar fuel p input).result = some (parts, rest) →
    Reads grammar p input parts rest
  seq : ∀ {ps input reach done parts rest},
    (runSeq grammar fuel ps input reach done).result = some (parts, rest) →
    ∃ more, parts = done ++ more ∧ Reads grammar (.seq ps) input more rest
  choice : ∀ {ps input reach parts rest},
    (runChoice grammar fuel ps input reach).result = some (parts, rest) →
    Reads grammar (.choice ps) input parts rest
  many : ∀ {p input reach done parts rest},
    (runMany grammar fuel p input reach done).result = some (parts, rest) →
    ∃ more, parts = done ++ more ∧ Reads grammar (.many p) input more rest
  nested : ∀ {first all steps reach role tree input mid parts rest}, steps ⊆ all →
    Reads grammar (.nested first all) input [(role, tree)] mid →
    (runNested grammar fuel all steps reach role tree mid).result = some (parts, rest) →
    Reads grammar (.nested first all) input parts rest

/-- Without fuel nothing fits. -/
theorem faithful_zero (grammar : Rule → Pattern Rule) : Faithful grammar 0 where
  run h := by simp [Java.run.eq_def] at h
  seq h := by simp [runSeq.eq_def] at h
  choice h := by simp [runChoice.eq_def] at h
  many h := by simp [runMany.eq_def] at h
  nested _ _ h := by simp [runNested.eq_def] at h

section Step

variable {fuel : Nat} {p : Pattern Rule} {ps : List (Pattern Rule)} {input mid rest : List Token}
variable {parts done : Parts} {reach : Nat}

theorem Faithful.run_succ (hfuel : Faithful grammar fuel)
    (h : (Java.run grammar (fuel + 1) p input).result = some (parts, rest)) :
    Reads grammar p input parts rest := by
  rw [Java.run.eq_def] at h
  cases p with
  | token text =>
    simp only at h
    split at h
    · split at h
      · next ht =>
        obtain ⟨hplain, htext⟩ := by simpa using ht
        cases h
        exact .token hplain htext
      · cases h
    · cases h
  | adjacent texts =>
    simp only at h
    split at h
    · next hread => cases h; exact .adjacent hread
    · cases h
  | closeAngle =>
    simp only at h
    split at h
    · next hread => cases h; exact .closeAngle hread
    · cases h
  | leaf kind accepts =>
    simp only [attemptLeaf] at h
    split at h
    · split at h
      · next ht => cases h; exact .leaf ht
      · cases h
    · cases h
  | seq ps =>
    obtain ⟨more, rfl, hmore⟩ := hfuel.seq h
    exact hmore
  | choice ps => exact hfuel.choice h
  | many p =>
    obtain ⟨more, rfl, hmore⟩ := hfuel.many h
    exact hmore
  | ahead p =>
    simp only at h
    split at h
    · cases h; exact .ahead
    · cases h
  | notAhead p =>
    simp only at h
    split at h
    · cases h
    · cases h; exact .notAhead
  | only kinds p =>
    simp only at h
    split at h
    · next hread =>
      split at h
      · next hkind => cases h; exact .only hkind (hfuel.run hread)
      · cases h
    · cases h
  | node kind p =>
    simp only at h
    split at h
    · next hread => cases h; exact .node (hfuel.run hread)
    · next hread => rw [hread] at h; cases h
  | as role p =>
    simp only at h
    split at h
    · next hread => cases h; exact .as (hfuel.run hread)
    · next hread => rw [hread] at h; cases h
  | nested first steps =>
    simp only at h
    split at h
    · next hread =>
      exact hfuel.nested (List.Subset.refl _) (.operand (hfuel.run hread)) h
    · -- nothing continues an operand of no tree or of several
      exact .operand (hfuel.run h)
  | rule r => exact .rule (hfuel.run h)

theorem Faithful.seq_succ (hfuel : Faithful grammar fuel)
    (h : (runSeq grammar (fuel + 1) ps input reach done).result = some (parts, rest)) :
    ∃ more, parts = done ++ more ∧ Reads grammar (.seq ps) input more rest := by
  rw [runSeq.eq_def] at h
  cases ps with
  | nil =>
    cases h
    exact ⟨[], (List.append_nil _).symm, .seqNil⟩
  | cons p ps =>
    simp only [Attempt.result_after] at h
    split at h
    · next hfirst =>
      obtain ⟨others, rfl, hothers⟩ := hfuel.seq h
      exact ⟨_, List.append_assoc _ _ _, .seqCons (hfuel.run hfirst) hothers⟩
    · next hfirst =>
      rw [Attempt.result_after, hfirst] at h
      cases h

theorem Faithful.choice_succ (hfuel : Faithful grammar fuel)
    (h : (runChoice grammar (fuel + 1) ps input reach).result = some (parts, rest)) :
    Reads grammar (.choice ps) input parts rest := by
  rw [runChoice.eq_def] at h
  cases ps with
  | nil => cases h
  | cons p ps =>
    simp only [Attempt.result_after] at h
    split at h
    · exact .choice List.mem_cons_self (hfuel.run h)
    · cases hfuel.choice h with
      | choice hmem hread => exact .choice (List.mem_cons_of_mem _ hmem) hread

theorem Faithful.many_succ (hfuel : Faithful grammar fuel)
    (h : (runMany grammar (fuel + 1) p input reach done).result = some (parts, rest)) :
    ∃ more, parts = done ++ more ∧ Reads grammar (.many p) input more rest := by
  rw [runMany.eq_def] at h
  simp only [Attempt.result_after] at h
  split at h
  · next hfirst =>
    obtain ⟨others, rfl, hothers⟩ := hfuel.many h
    exact ⟨_, List.append_assoc _ _ _, .manyMore (hfuel.run hfirst) hothers⟩
  · cases h
    exact ⟨[], (List.append_nil _).symm, .manyStop⟩

variable {first : Pattern Rule} {role : Option Role} {tree : Tree}
variable {all steps : List (Kind × List Kind × Option Role × Pattern Rule)}

theorem Faithful.nested_succ (hfuel : Faithful grammar fuel) (hsteps : steps ⊆ all)
    (hread : Reads grammar (.nested first all) input [(role, tree)] mid)
    (h : (runNested grammar (fuel + 1) all steps reach role tree mid).result =
      some (parts, rest)) :
    Reads grammar (.nested first all) input parts rest := by
  rw [runNested.eq_def] at h
  cases steps with
  | nil => cases h; exact hread
  | cons step steps =>
    obtain ⟨kind, kinds, part, p⟩ := step
    obtain ⟨hstep, hothers⟩ := List.cons_subset.1 hsteps
    simp only [Attempt.result_after] at h
    split at h
    · split at h
      · next hmore =>
        exact hfuel.nested (List.Subset.refl _)
          (.continuation hstep hread (hfuel.run hmore)) h
      · exact hfuel.nested hothers hread h
    · exact hfuel.nested hothers hread h

end Step

theorem Faithful.succ {fuel : Nat} (hfuel : Faithful grammar fuel) :
    Faithful grammar (fuel + 1) where
  run := hfuel.run_succ
  seq := hfuel.seq_succ
  choice := hfuel.choice_succ
  many := hfuel.many_succ
  nested := hfuel.nested_succ

theorem faithful (grammar : Rule → Pattern Rule) (fuel : Nat) : Faithful grammar fuel := by
  induction fuel with
  | zero => exact faithful_zero grammar
  | succ fuel ih => exact ih.succ

/-- **What an attempt comes to is read.** -/
theorem reads_of_run {fuel : Nat} {p : Pattern Rule} {input rest : List Token} {parts : Parts}
    (h : (run grammar fuel p input).result = some (parts, rest)) :
    Reads grammar p input parts rest :=
  (faithful grammar fuel).run h

end Java

end Remedy
