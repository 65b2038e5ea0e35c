import Mathlib
import Remedy.Proofs.Java.Walk
/-!
# A visit, one move of the cursor at a time

A step of a visit may climb through many trees. Here it is taken apart: a
`Tour` makes one move of the cursor in each step, and counts its depth in the
integers, so that a count that fell below zero would show. A tour stays at
and below its start with its count true to where it stands (`Within`), comes
by what is left of a visit and gets nearer to its end with each move
(`Move.left_eq`, `Move.moves_eq`). So the calls of a visit answer with the
places at and below its start, each once and in order, and with nothing from
then on (`Walk.exact_ofCursor`).
-/

namespace Remedy

namespace Java

/-! ### The calls of a visit -/

namespace Walk

/-- A call of the visit: what it answers, and the visit that is left. -/
def call (w : Walk) : Option Cursor × Walk :=
  match w.next? with
  | some (c, rest) => (some c, rest)
  | none => (none, w)

/-- A visit behind a number of calls. -/
def after (w : Walk) (n : Nat) : Walk := (fun w => w.call.2)^[n] w

/-- What a visit answers to the call behind a number of others. -/
def answer (w : Walk) (n : Nat) : Option Cursor := (w.after n).call.1

theorem after_succ (w : Walk) (n : Nat) : w.after (n + 1) = (w.after n).call.2 :=
  Function.iterate_succ_apply' _ n w

theorem left_call (w : Walk) : w.call.1 = w.left.head? ∧ w.call.2.left = w.left.tail := by
  rw [call]
  split
  · next h => rw [left_of_next?_eq_some h]; exact ⟨rfl, rfl⟩
  · next h => rw [left_of_next?_eq_none h]; exact ⟨rfl, rfl⟩

theorem left_after (w : Walk) (n : Nat) : (w.after n).left = w.left.drop n := by
  induction n with
  | zero => rfl
  | succ n ih => rw [after_succ, (left_call _).2, ih, List.tail_drop]

/-- **The calls answer with what is left**, and with nothing from then on. -/
theorem answer_eq (w : Walk) (n : Nat) : w.answer n = w.left[n]? := by
  rw [answer, (left_call _).1, left_after, List.head?_drop]

end Walk

/-! ### One move at a time -/

/-- What a tour is about to do: to answer with the tree at hand, to climb, or
nothing any more. -/
inductive Phase where
  | answering
  | climbing
  | done
deriving DecidableEq

/-- A visit in the midst of a step. -/
structure Tour where
  cursor : Cursor
  depth : Int
  phase : Phase

namespace Tour

open Walk (pending)

/-- The tour from a cursor on. -/
def ofCursor (c : Cursor) : Tour := ⟨c, 0, .answering⟩

/-- **One move.** A tree is answered on the way down to its first child, and a
tour without one climbs, to the next sibling if there is one and else to the
parent, till its count is zero. -/
def step (m : Tour) : Tour :=
  match m.phase with
  | .answering =>
    match m.cursor.firstChild? with
    | some child => ⟨child, m.depth + 1, .answering⟩
    | none => { m with phase := .climbing }
  | .climbing =>
    if m.depth = 0 then { m with phase := .done }
    else
      match m.cursor.nextSibling? with
      | some next => { m with cursor := next, phase := .answering }
      | none => { m with cursor := m.cursor.parent?.getD m.cursor, depth := m.depth - 1 }
  | .done => m

/-- A tour behind a number of moves. -/
def run (m : Tour) (k : Nat) : Tour := step^[k] m

/-- The tree that a tour answers with in its next move, if it does. -/
def answer? (m : Tour) : Option Cursor := if m.phase = .answering then some m.cursor else none

/-- What a tour answers with in a number of moves. -/
def answers (m : Tour) (k : Nat) : List Cursor :=
  (List.range k).flatMap fun j => (m.run j).answer?.toList

/-- **Where a tour may stand**: at or below its start, as deep as it
counts. -/
structure Within (c : Cursor) (m : Tour) : Prop where
  mem : m.cursor ∈ c.subtree
  depth : (m.cursor.address.length : Int) = c.address.length + m.depth
  done : m.phase = .done → m.depth = 0

/-- What is left of a tour. -/
def left (m : Tour) : List Cursor :=
  match m.phase with
  | .answering => Walk.left ⟨m.cursor, m.depth.toNat, false⟩
  | .climbing => pending m.cursor.trail m.cursor.focus m.depth.toNat
  | .done => []

/-- **How many moves there are left**: two for each place, one for each level
to climb back, and the one that ends a climb. -/
def moves (m : Tour) : Nat :=
  2 * m.left.length + m.depth.toNat + if m.phase = .climbing then 1 else 0

/-- **The moves of a tour** that stands where it may. -/
inductive Move : Tour → Tour → Prop where
  | down {c child : Cursor} {depth : Nat} (h : c.firstChild? = some child) :
    Move ⟨c, depth, .answering⟩ ⟨child, (depth + 1 : Nat), .answering⟩
  | turn {c : Cursor} {depth : Nat} (h : c.firstChild? = none) :
    Move ⟨c, depth, .answering⟩ ⟨c, depth, .climbing⟩
  | stop (c : Cursor) : Move ⟨c, (0 : Nat), .climbing⟩ ⟨c, (0 : Nat), .done⟩
  | next {c next : Cursor} {depth : Nat} (h : c.nextSibling? = some next) :
    Move ⟨c, (depth + 1 : Nat), .climbing⟩ ⟨next, (depth + 1 : Nat), .answering⟩
  | up {c parent : Cursor} {depth : Nat} (hnext : c.nextSibling? = none)
    (h : c.parent? = some parent) :
    Move ⟨c, (depth + 1 : Nat), .climbing⟩ ⟨parent, depth, .climbing⟩
  | rest (c : Cursor) : Move ⟨c, (0 : Nat), .done⟩ ⟨c, (0 : Nat), .done⟩

variable {c d : Cursor} {m m' : Tour} {w : Walk} {depth n k : Nat} {above : List Nat}
  {phase : Phase}

/-- A move is what a step does. -/
theorem Move.step_eq (h : Move m m') : m.step = m' := by
  cases h with
  | down h => simp [step, h]
  | turn h => simp [step, h]
  | stop c => rfl
  | next h => simp [step, h]; omega
  | up hnext h => simp [step, hnext, h]; omega
  | rest c => rfl

/-- The start is above all that a tour stands at, so the count is never below
zero. -/
theorem Within.depth_nonneg (h : Within c m) : 0 ≤ m.depth := by
  have hlength := (Cursor.mem_subtree_iff.1 h.mem).2.length_le
  have hdepth := h.depth
  omega

/-- **A tour makes one of the moves.** Where its count is not zero there is a
parent to climb to. -/
theorem Within.move (h : Within c m) : Move m m.step := by
  have hdepth := h.depth
  have hdone := h.done
  -- the moves are told for counts that are natural numbers, which all counts are
  obtain ⟨depth, hnatural⟩ := Int.eq_ofNat_of_zero_le h.depth_nonneg
  obtain ⟨cursor, _, phase⟩ := m
  dsimp only at hdepth hnatural
  subst hnatural
  cases phase with
  | answering =>
    cases hchild : cursor.firstChild? with
    | some child => exact (Move.down hchild).step_eq ▸ .down hchild
    | none => exact (Move.turn hchild).step_eq ▸ .turn hchild
  | climbing =>
    cases depth with
    | zero => exact .stop cursor
    | succ depth =>
      cases hnext : cursor.nextSibling? with
      | some next => exact (Move.next hnext).step_eq ▸ .next hnext
      | none =>
        cases hparent : cursor.parent? with
        | some parent => exact (Move.up hnext hparent).step_eq ▸ .up hnext hparent
        | none =>
          -- only the root has no parent, and it is below no other tree
          rw [Cursor.parent?_eq_none hparent, List.length_nil] at hdepth
          omega
  | done =>
    obtain rfl : depth = 0 := Int.ofNat_eq_zero.1 (hdone rfl)
    exact .rest cursor

/-- **Where the count is not zero** the tree at hand is not the start, and its
parent is still at or below the start. -/
theorem Within.start_prefix (h : Within c ⟨d, (depth + 1 : Nat), phase⟩)
    (haddress : d.address = above ++ [n]) :
    c.address <+: above ∧ above.length = c.address.length + depth := by
  have hdepth : (d.address.length : Int) = c.address.length + (depth + 1 : Nat) := h.depth
  have hstart : c.address <+: d.address := (Cursor.mem_subtree_iff.1 h.mem).2
  rw [haddress, List.length_append, List.length_singleton] at hdepth
  rw [haddress, List.prefix_concat_iff] at hstart
  have hnotSelf : c.address ≠ above ++ [n] := by
    intro hself
    rw [hself, List.length_append, List.length_singleton] at hdepth
    omega
  exact ⟨hstart.resolve_left hnotSelf, by omega⟩

/-- **A move stays at and below the start**, and keeps the count true. -/
theorem Move.within (hmove : Move m m') (h : Within c m) : Within c m' := by
  have hroot := (Cursor.mem_subtree_iff.1 h.mem).1
  cases hmove with
  | down hchild =>
    obtain ⟨hsame, haddress⟩ := Cursor.firstChild?_eq_some hchild
    have hdepth := h.depth
    have hstart := (Cursor.mem_subtree_iff.1 h.mem).2
    refine ⟨Cursor.mem_subtree_iff.2 ⟨hsame.trans hroot, ?_⟩, ?_, nofun⟩
    · rw [haddress]
      exact hstart.trans (List.prefix_append _ _)
    · rw [haddress, List.length_append, List.length_singleton]
      dsimp only at hdepth ⊢
      omega
  | turn _ => exact ⟨h.mem, h.depth, nofun⟩
  | stop _ => exact ⟨h.mem, h.depth, fun _ => rfl⟩
  | next hnext =>
    -- a sibling has the parent of the tree at hand, so it is no sibling of the start
    obtain ⟨hsame, above, n, haddress, hbeside⟩ := Cursor.nextSibling?_eq_some hnext
    obtain ⟨habove, hlength⟩ := h.start_prefix haddress
    refine ⟨Cursor.mem_subtree_iff.2 ⟨hsame.trans hroot, ?_⟩, ?_, nofun⟩
    · rw [hbeside]
      exact habove.trans (List.prefix_append _ _)
    · rw [hbeside, List.length_append, List.length_singleton]
      dsimp only
      omega
  | up _ hparent =>
    obtain ⟨hsame, n, haddress⟩ := Cursor.parent?_eq_some hparent
    obtain ⟨habove, hlength⟩ := h.start_prefix haddress
    refine ⟨Cursor.mem_subtree_iff.2 ⟨hsame.trans hroot, habove⟩, ?_, nofun⟩
    dsimp only
    omega
  | rest _ => exact h

/-- **A move answers with the first place that is left**, or takes none
off. -/
theorem Move.left_eq (h : Move m m') : m.left = m.answer?.toList ++ m'.left := by
  cases h with
  | down h => exact Walk.left_of_firstChild?_eq_some h
  | turn h => exact Walk.left_of_firstChild?_eq_none h
  | stop c => exact Walk.pending_zero _ _
  | next h => exact Walk.pending_of_nextSibling?_eq_some h
  | up hnext h => exact Walk.pending_of_parent?_eq_some hnext h
  | rest c => rfl

/-- **A move leaves one move less**, unless there was none left. -/
theorem Move.moves_eq (h : Move m m') : m'.moves = m.moves - 1 := by
  have hleft := congrArg List.length h.left_eq
  rw [List.length_append] at hleft
  rw [moves, moves, hleft]
  cases h <;> simp [answer?, left] <;> omega

/-- Moves are left until a tour is done. -/
theorem Within.phase_eq_done_iff (h : Within c m) : m.phase = .done ↔ m.moves = 0 := by
  constructor
  · intro hdone
    rw [moves, left, h.done hdone, hdone]
    rfl
  · intro hmoves
    cases hphase : m.phase with
    | done => rfl
    | climbing =>
      rw [moves, hphase] at hmoves
      cases hmoves
    | answering =>
      have hhand : 0 < m.cursor.subtree.length :=
        List.length_pos_of_mem (Cursor.self_mem_subtree m.cursor)
      rw [moves, left, hphase, Walk.left_unfinished, List.length_append] at hmoves
      omega

/-! ### A whole tour -/

theorem run_succ (m : Tour) (k : Nat) : m.run (k + 1) = (m.run k).step :=
  Function.iterate_succ_apply' _ k m

theorem within_ofCursor (c : Cursor) : Within c (ofCursor c) :=
  ⟨Cursor.self_mem_subtree c, (Int.add_zero _).symm, nofun⟩

theorem Within.run (h : Within c m) (k : Nat) : Within c (m.run k) := by
  induction k with
  | zero => exact h
  | succ k ih =>
    rw [run_succ]
    exact ih.move.within ih

theorem Within.moves_run (h : Within c m) (k : Nat) : (m.run k).moves = m.moves - k := by
  induction k with
  | zero => rfl
  | succ k ih => rw [run_succ, (h.run k).move.moves_eq, ih, Nat.sub_sub]

theorem Within.answers_append (h : Within c m) (k : Nat) :
    m.answers k ++ (m.run k).left = m.left := by
  induction k with
  | zero => rfl
  | succ k ih =>
    rw [answers, List.range_succ, List.flatMap_append, List.flatMap_singleton, List.append_assoc,
      run_succ, ← (h.run k).move.left_eq]
    exact ih

@[simp] theorem left_ofCursor (c : Cursor) : (ofCursor c).left = c.subtree := Walk.left_ofCursor c

theorem moves_ofCursor (c : Cursor) : (ofCursor c).moves = 2 * c.focus.size := by
  rw [moves, left_ofCursor, Cursor.length_subtree]
  rfl

theorem phase_run_eq_done_iff (c : Cursor) (k : Nat) :
    ((ofCursor c).run k).phase = .done ↔ 2 * c.focus.size ≤ k := by
  have hwithin := within_ofCursor c
  rw [(hwithin.run k).phase_eq_done_iff, hwithin.moves_run, moves_ofCursor, Nat.sub_eq_zero_iff_le]

/-- **A tour that is done has answered with the places at and below its
start.** -/
theorem answers_ofCursor (h : 2 * c.focus.size ≤ k) : (ofCursor c).answers k = c.subtree := by
  have hdone := (phase_run_eq_done_iff c k).2 h
  have hanswers := (within_ofCursor c).answers_append k
  rwa [left, hdone, List.append_nil, left_ofCursor] at hanswers

/-! ### The calls and the moves -/

theorem run_of_move (h : Move m m') (k : Nat) : m.run (k + 1) = m'.run k := by
  rw [run, Function.iterate_succ_apply, h.step_eq, run]

/-- **A climb is made of moves**, to the place that it leads to or to the
end. -/
theorem exists_climb (h : depth ≤ c.address.length) : ∃ k,
    (∀ next depth', Walk.climb c depth = some (next, depth') →
      run ⟨c, depth, .climbing⟩ k = ⟨next, depth', .answering⟩) ∧
    (Walk.climb c depth = none → (run ⟨c, depth, .climbing⟩ k).phase = .done) := by
  induction depth generalizing c with
  | zero => exact ⟨1, nofun, fun _ => rfl⟩
  | succ depth ih =>
    cases hnext : c.nextSibling? with
    | some next =>
      refine ⟨1, fun next' depth' hclimb => ?_, fun hclimb => ?_⟩ <;>
        rw [Walk.climb, hnext] at hclimb <;> cases hclimb
      exact (Move.next hnext).step_eq
    | none =>
      cases hparent : c.parent? with
      | none =>
        rw [Cursor.parent?_eq_none hparent] at h
        cases h
      | some parent =>
        obtain ⟨-, n, haddress⟩ := Cursor.parent?_eq_some hparent
        rw [haddress, List.length_append] at h
        obtain ⟨k, hsome, hnone⟩ := ih (Nat.le_of_succ_le_succ h)
        refine ⟨k + 1, ?_⟩
        rw [run_of_move (.up hnext hparent), Walk.climb, hnext, hparent]
        exact ⟨hsome, hnone⟩

/-- **A visit between two calls** is a tour that is about to answer, or one
that is done. -/
def Meets (w : Walk) (m : Tour) : Prop :=
  if w.finished then m.phase = .done else m = ⟨w.cursor, w.depth, .answering⟩

/-- **A call is made of moves.** -/
theorem Meets.call (h : Meets w m) (hwithin : Within c m) : ∃ k, Meets w.call.2 (m.run k) := by
  obtain ⟨cursor, depth, finished⟩ := w
  cases finished with
  | true => exact ⟨0, h⟩
  | false =>
    cases h
    have hdepth : depth ≤ cursor.address.length := by
      have hlength := hwithin.depth
      dsimp only at hlength
      omega
    rw [Walk.call, Walk.next?]
    simp only [Bool.false_eq_true, if_false]
    cases hchild : cursor.firstChild? with
    | some child => exact ⟨1, (Move.down hchild).step_eq⟩
    | none =>
      obtain ⟨k, hsome, hnone⟩ := exists_climb hdepth
      refine ⟨k + 1, ?_⟩
      rw [run_of_move (.turn hchild)]
      cases hclimb : Walk.climb cursor depth with
      | some reached => exact hsome _ _ hclimb
      | none => exact hnone hclimb

theorem exists_meets_after (c : Cursor) (n : Nat) :
    ∃ k, Meets ((Walk.ofCursor c).after n) ((ofCursor c).run k) := by
  induction n with
  | zero => exact ⟨0, rfl⟩
  | succ n ih =>
    obtain ⟨j, hj⟩ := ih
    obtain ⟨k, hk⟩ := hj.call ((within_ofCursor c).run j)
    refine ⟨k + j, ?_⟩
    rw [Walk.after_succ, run, Function.iterate_add_apply]
    exact hk

end Tour

/-! ### What a visit does -/

/-- **An exact visit** of a start: it goes through the places at and below
it, and ends. -/
structure Walk.Exact (c : Cursor) : Prop where
  /-- The places are those of the tree of the start whose addresses go on
  from its own, -/
  places : ∀ d, d ∈ c.subtree ↔ d.root = c.root ∧ c.address <+: d.address
  /-- they stand in the order of their addresses, none of them twice, -/
  increasing : (c.subtree.map Cursor.address).Pairwise (· < ·)
  /-- and their trees are those of the start in pre-order. -/
  preorder : c.subtree.map Cursor.focus = c.focus.preorder
  /-- The calls answer with them, one after the other, and with nothing from
  then on. -/
  answer : ∀ n, (ofCursor c).answer n = c.subtree[n]?
  descendants : c.descendants = c.subtree
  /-- Behind any number of calls the visit is where it is behind some number of
  moves, -/
  calls : ∀ n, ∃ k, Tour.Meets ((ofCursor c).after n) ((Tour.ofCursor c).run k)
  /-- it answers with the same places along these, -/
  answers : ∀ k, 2 * c.focus.size ≤ k → (Tour.ofCursor c).answers k = c.subtree
  /-- none of them leads outside of the start or has the count of levels fall
  below zero or be other than what it counts, -/
  within : ∀ k, ((Tour.ofCursor c).run k).cursor ∈ c.subtree ∧ 0 ≤ ((Tour.ofCursor c).run k).depth ∧
    (((Tour.ofCursor c).run k).cursor.address.length : Int) =
      c.address.length + ((Tour.ofCursor c).run k).depth
  /-- and they end behind two for each place. -/
  done_iff : ∀ k, ((Tour.ofCursor c).run k).phase = .done ↔ 2 * c.focus.size ≤ k

/-- **Every visit is exact**, at whichever place of whichever tree it
begins. -/
theorem Walk.exact_ofCursor (c : Cursor) : Exact c where
  places d := Cursor.mem_subtree_iff
  increasing := Cursor.pairwise_subtree c
  preorder := Cursor.map_focus_subtree c
  answer n := by rw [answer_eq, left_ofCursor]
  descendants := descendants_eq_subtree c
  calls := Tour.exists_meets_after c
  answers k h := Tour.answers_ofCursor h
  within k :=
    have hwithin := (Tour.within_ofCursor c).run k
    ⟨hwithin.mem, hwithin.depth_nonneg, hwithin.depth⟩
  done_iff := Tour.phase_run_eq_done_iff c

end Java

end Remedy
