import Mathlib
import Remedy.Java.Pattern
import Remedy.Proofs.Java.Layout
import Remedy.Proofs.Text.Lines
/-!
# The order of tokens

The tokens of a text stand in its order, none covers a byte of another, and
all of them are within the text (`tokenized_tokens`). No comment among them
is empty.
-/

namespace Remedy

namespace Java

/-- A token covers the bytes of its text. -/
def Token.Sized (t : Token) : Prop := t.span.stop = t.span.start + t.text.utf8ByteSize

theorem Token.Sized.start_le {t : Token} (h : t.Sized) : t.span.start ≤ t.span.stop :=
  h ▸ Nat.le_add_right _ _

/-! ### Tokens in order -/

/-- **Tokens in order**: each covers its text, and ends before the next
ones start. -/
structure Ordered (ts : List Token) : Prop where
  sized : ∀ t ∈ ts, t.Sized
  pairwise : ts.Pairwise fun t u => t.span.stop ≤ u.span.start

namespace Ordered

variable {t u : Token} {ts : List Token}

theorem cons (ht : t.Sized) (hts : ∀ u ∈ ts, t.span.stop ≤ u.span.start) (h : Ordered ts) :
    Ordered (t :: ts) :=
  ⟨List.forall_mem_cons.2 ⟨ht, h.sized⟩, List.pairwise_cons.2 ⟨hts, h.pairwise⟩⟩

theorem tail (h : Ordered (t :: ts)) : Ordered ts :=
  ⟨(List.forall_mem_cons.1 h.sized).2, (List.pairwise_cons.1 h.pairwise).2⟩

theorem filter (h : Ordered ts) (keeps : Token → Bool) : Ordered (ts.filter keeps) :=
  ⟨fun u hu => h.sized u (List.mem_of_mem_filter hu), h.pairwise.filter keeps⟩

theorem head_sized (h : Ordered (t :: ts)) : t.Sized := h.sized t List.mem_cons_self

/-- The first token ends before the others start. -/
theorem head_stop_le (h : Ordered (t :: ts)) (hu : u ∈ ts) : t.span.stop ≤ u.span.start :=
  (List.pairwise_cons.1 h.pairwise).1 u hu

/-- No token starts before the first one. -/
theorem positionOf_le (h : Ordered ts) (ht : t ∈ ts) : positionOf ts ≤ t.span.start := by
  cases ts with
  | nil => cases ht
  | cons u us =>
    rcases List.mem_cons.1 ht with rfl | ht
    · exact Nat.le_refl _
    · exact h.head_sized.start_le.trans (h.head_stop_le ht)

/-- Two different tokens are apart. -/
theorem apart (h : Ordered ts) (ht : t ∈ ts) (hu : u ∈ ts) (hne : t ≠ u) :
    t.span.Apart u.span := by
  have hsymm : Std.Symm fun t u : Token => t.span.Apart u.span := ⟨fun _ _ => Span.Apart.symm⟩
  have hall : ts.Pairwise fun t u => t.span.Apart u.span := h.pairwise.imp fun hle => Or.inl hle
  exact hall.forall ht hu hne

end Ordered

/-! ### The tokens of a text -/

theorem tokensFrom_eq (done : List Token) (offset : Nat) (cs : List Char) (fuel : Nat) :
    tokensFrom done offset cs fuel = done.reverse ++ tokensFrom [] offset cs fuel := by
  induction fuel generalizing done offset cs with
  | zero => simp [tokensFrom]
  | succ fuel ih =>
    cases cs with
    | nil => simp [tokensFrom]
    | cons c cs =>
      simp only [tokensFrom]
      split
      · exact ih _ _ _
      · rw [ih, ih [_], List.reverse_cons, List.append_assoc, List.reverse_singleton]

/-- A digit in front starts a run of digits. -/
theorem digitRun_pos {isDigit : Char → Bool} {c : Char} (hc : isDigit c) (hmark : c ≠ '_')
    (cs : List Char) : 0 < digitRun isDigit (c :: cs) := by
  have htake : (c :: cs).takeWhile (fun d => isDigit d || d == '_') =
      c :: cs.takeWhile fun d => isDigit d || d == '_' := by
    rw [List.takeWhile_cons_of_pos (by rw [hc, Bool.true_or])]
  rw [digitRun, htake]
  simp only [hc, if_true]
  rw [List.length_pos_iff, List.reverse_cons, Ne, List.dropWhile_eq_nil_iff]
  intro h
  have hlast := h c (List.mem_append_right _ List.mem_cons_self)
  exact hmark (eq_of_beq hlast)

/-- A number takes up characters. -/
theorem number_length_pos {cs : List Char} (h : (∃ d rest, cs = d :: rest ∧ d.isDigit) ∨
      ∃ d rest, cs = '.' :: d :: rest ∧ d.isDigit) : 0 < (number cs).2 := by
  -- without a point the whole part has a digit, and a point is counted itself
  have hfront : 0 < digitRun Char.isDigit cs +
      suffixLength ['.'] (cs.drop (digitRun Char.isDigit cs)) := by
    rcases h with ⟨d, rest, rfl, hd⟩ | ⟨d, rest, rfl, -⟩
    · refine Nat.add_pos_left (digitRun_pos hd ?_ rest) _
      rintro rfl
      exact absurd hd (by decide)
    · refine Nat.add_pos_right _ ?_
      have hnone : digitRun Char.isDigit ('.' :: d :: rest) = 0 := by
        rw [digitRun, List.takeWhile_cons_of_neg (by decide)]
      rw [hnone]
      exact Nat.one_pos
  unfold number hexNumber
  split
  case h_5 =>
    dsimp only
    split_ifs <;> (dsimp only at *; omega)
  all_goals
    dsimp only
    split_ifs <;> omega

/-- A sign takes up characters. -/
theorem sign?_ne_nil {cs s : List Char} (h : sign? cs = some s) : s ≠ [] := by
  rw [sign?.eq_def] at h
  split at h
  case h_1 text hfind =>
    cases h
    have hlong : ∀ text ∈ longSigns, text.toList ≠ [] := by decide
    exact hlong text (List.mem_of_find?_eq_some hfind)
  case h_2 =>
    split at h
    · split at h
      · cases h
        exact List.cons_ne_nil _ _
      · cases h
    · cases h

theorem closed_length_pos {kind : TokenKind} {opening : Nat} {length : Option Nat}
    {cs : List Char} (hopening : 0 < opening) (hcs : cs ≠ []) :
    0 < (closed kind opening length cs).2 := by
  cases length with
  | some n => exact Nat.add_pos_left hopening n
  | none => exact List.length_pos_iff.2 hcs

/-- **The first token of some characters takes up some of them.** -/
theorem first_length_pos {cs : List Char} (hcs : cs ≠ []) : 0 < (first cs).2 := by
  rw [first.eq_def]
  split
  case h_1 => exact Nat.add_pos_left Nat.two_pos _
  case h_2 => exact closed_length_pos Nat.two_pos hcs
  case h_3 => exact closed_length_pos (Nat.succ_pos 2) hcs
  case h_4 => exact closed_length_pos Nat.one_pos hcs
  case h_5 => exact closed_length_pos Nat.one_pos hcs
  case h_6 d rest =>
    split
    · next hd => exact number_length_pos (.inr ⟨d, rest, rfl, hd⟩)
    · split
      · next hsign => exact List.length_pos_iff.2 (sign?_ne_nil hsign)
      · exact Nat.one_pos
  case h_7 c rest _ _ _ _ _ _ =>
    split
    · exact Nat.add_pos_left Nat.one_pos _
    · split
      · next hc => exact number_length_pos (.inl ⟨c, rest, rfl, hc⟩)
      · split
        · next hsign => exact List.length_pos_iff.2 (sign?_ne_nil hsign)
        · exact Nat.one_pos
  case h_8 => exact absurd rfl hcs

/-- What is known of the tokens between two offsets of a text. -/
structure Tokenized (start stop : Nat) (ts : List Token) : Prop where
  ordered : Ordered ts
  start_le : ∀ t ∈ ts, start ≤ t.span.start
  le_stop : ∀ t ∈ ts, t.span.stop ≤ stop
  comment : ∀ t ∈ ts, t.isComment → t.text ≠ ""

namespace Tokenized

variable {start stop : Nat} {t : Token} {ts : List Token}

theorem tail (h : Tokenized start stop (t :: ts)) : Tokenized start stop ts :=
  ⟨h.ordered.tail, (List.forall_mem_cons.1 h.start_le).2, (List.forall_mem_cons.1 h.le_stop).2,
    (List.forall_mem_cons.1 h.comment).2⟩

theorem filter (h : Tokenized start stop ts) (keeps : Token → Bool) :
    Tokenized start stop (ts.filter keeps) :=
  ⟨h.ordered.filter keeps, fun u hu => h.start_le u (List.mem_of_mem_filter hu),
    fun u hu => h.le_stop u (List.mem_of_mem_filter hu),
    fun u hu => h.comment u (List.mem_of_mem_filter hu)⟩

/-- They are between the start of the first one and the same end. -/
theorem tighten (h : Tokenized start stop ts) : Tokenized (positionOf ts) stop ts :=
  ⟨h.ordered, fun _ => h.ordered.positionOf_le, h.le_stop, h.comment⟩

/-- A comment covers a byte. -/
theorem start_lt_stop (h : Tokenized start stop ts) (ht : t ∈ ts) (hcomment : t.isComment) :
    t.span.start < t.span.stop := by
  have hsize : t.text.utf8ByteSize ≠ 0 := fun hzero =>
    h.comment t ht hcomment (String.utf8ByteSize_eq_zero_iff.1 hzero)
  rw [h.ordered.sized t ht]
  omega

end Tokenized

theorem tokenized_end {offset stop : Nat} (h : offset ≤ stop) :
    Tokenized offset stop [⟨.endOfText, "", ⟨offset, offset⟩⟩] where
  ordered := ⟨by simp [Token.Sized], List.pairwise_singleton _ _⟩
  start_le := by simp
  le_stop := by simpa using h
  comment := by simp [Token.isComment]

/-- White space is skipped by the byte. -/
theorem utf8Size_of_isSpace {c : Char} (h : isSpace c) : c.utf8Size = 1 := by
  have hsmall : c.toNat ≤ 127 := by
    rcases Bool.or_eq_true _ _ ▸ h with hblank | hrange
    · rw [eq_of_beq hblank]
      decide
    · rw [Bool.and_eq_true, decide_eq_true_eq, decide_eq_true_eq] at hrange
      omega
  exact Char.utf8Size_eq_one_iff.2 (UInt32.le_iff_toNat_le.2 hsmall)

theorem Tokenized.widen {start stop start' stop' : Nat} {ts : List Token}
    (h : Tokenized start stop ts) (hstart : start' ≤ start) (hstop : stop ≤ stop') :
    Tokenized start' stop' ts :=
  ⟨h.ordered, fun t ht => hstart.trans (h.start_le t ht), fun t ht => (h.le_stop t ht).trans hstop,
    h.comment⟩

/-- One token more at the start. -/
theorem Tokenized.cons {start middle stop : Nat} {t : Token} {ts : List Token}
    (h : Tokenized middle stop ts) (hspan : t.span = ⟨start, middle⟩) (hsized : t.Sized)
    (hstop : middle ≤ stop) (hcomment : t.isComment → t.text ≠ "") :
    Tokenized start stop (t :: ts) := by
  have hle : start ≤ middle := by simpa only [hspan] using hsized.start_le
  refine ⟨.cons hsized (fun u hu => ?_) h.ordered, List.forall_mem_cons.2 ⟨?_, fun u hu => ?_⟩,
    List.forall_mem_cons.2 ⟨?_, h.le_stop⟩, List.forall_mem_cons.2 ⟨hcomment, h.comment⟩⟩
  · rw [hspan]
    exact h.start_le u hu
  · rw [hspan]
  · exact hle.trans (h.start_le u hu)
  · rw [hspan]
    exact hstop

theorem tokenized_tokensFrom (offset : Nat) (cs : List Char) (fuel : Nat) :
    Tokenized offset (offset + Text.byteSize cs) (tokensFrom [] offset cs fuel) := by
  induction fuel generalizing offset cs with
  | zero => exact tokenized_end (Nat.le_add_right _ _)
  | succ fuel ih =>
    cases cs with
    | nil => exact tokenized_end (Nat.le_add_right _ _)
    | cons c cs =>
      rw [tokensFrom]
      split
      · next hspace =>
        refine (ih (offset + 1) cs).widen (Nat.le_add_right _ _) ?_
        rw [Text.byteSize, utf8Size_of_isSpace hspace, Nat.add_assoc]
      · have hcut := Text.byteSize_append ((c :: cs).take (first (c :: cs)).2)
          ((c :: cs).drop (first (c :: cs)).2)
        rw [List.take_append_drop] at hcut
        dsimp only
        rw [tokensFrom_eq, hcut, ← Nat.add_assoc, List.reverse_singleton, List.singleton_append]
        refine (ih _ _).cons rfl ?_ (Nat.le_add_right _ _) ?_
        · rw [Token.Sized, Text.byteSize_eq]
        · intro _ hempty
          have hlength := first_length_pos (List.cons_ne_nil c cs)
          have htake := List.take_eq_nil_iff.1 (String.ofList_eq_empty_iff.1 hempty)
          rcases htake with hzero | hnil
          · exact absurd hzero hlength.ne'
          · cases hnil

/-- **The tokens of a text are in order and within it.** -/
theorem tokenized_tokens (text : String) : Tokenized 0 text.utf8ByteSize (tokens text) := by
  have hsize : Text.byteSize text.toList = text.utf8ByteSize := by
    rw [Text.byteSize_eq, String.ofList_toList]
  rw [tokens, ← hsize]
  split
  · next cs hmark =>
    rw [hmark, Text.byteSize]
    exact (tokenized_tokensFrom 3 cs _).widen (Nat.zero_le _) (Nat.le_refl _)
  · exact (tokenized_tokensFrom 0 text.toList _).widen (Nat.le_refl _) (Nat.zero_add _).le

end Java

end Remedy
