import Mathlib
import Remedy.Codemod.HttpMethods
import Remedy.Proofs.Runs
import Remedy.Proofs.Text.Lines
import Remedy.Proofs.Text.Overlap
/-!
# The elements that name methods

The codemod for web descriptors goes through a text from left to right and takes
up again behind each element that it found. What it finds are all elements of
the text (`HttpMethod.mem_spans`), since no element starts inside another one:
the only `<` behind the first character of an element is that of its closing
tag, and there a `/` follows (`not_inside`).
-/

namespace Remedy

namespace HttpMethod

variable {piece piece' blanks content before before' inner cs after after' : List Char}
variable {c : Char} {n o : Nat} {s t : Span} {text : String}

/-! ### Elements -/

/-- **The parts of an element**: the opening tag with blanks ahead of its end,
letters, blanks and stars, and the closing tag. -/
structure Parts (piece blanks content : List Char) : Prop where
  joined : piece = opening ++ (blanks ++ '>' :: (content ++ closing))
  blanks : ∀ c ∈ blanks, isBlank c
  nonempty : content ≠ []
  content : ∀ c ∈ content, isContent c

/-- **An element that names a method.** -/
def IsElement (piece : List Char) : Prop := ∃ blanks content, Parts piece blanks content

/-- **The element at the start of a text is told by its length.** -/
theorem elementLength?_of_isElement (h : IsElement piece) (after : List Char) :
    elementLength? (piece ++ after) = some piece.length := by
  obtain ⟨blanks, content, rfl, hblanks, hne, hcontent⟩ := h
  have hopening : opening.isPrefixOf
      (opening ++ (blanks ++ '>' :: (content ++ closing)) ++ after) := by
    rw [List.isPrefixOf_iff_prefix, List.append_assoc]
    exact List.prefix_append _ _
  have hrest : (opening ++ (blanks ++ '>' :: (content ++ closing)) ++ after).drop opening.length =
      blanks ++ '>' :: (content ++ (closing ++ after)) := by
    simp only [List.append_assoc, List.drop_left, List.cons_append]
  have hend : ∀ c ∈ ('>' :: (content ++ (closing ++ after))).head?, ¬ isBlank c := by
    rintro c hc
    cases hc
    decide
  have hstop : ∀ c ∈ (closing ++ after).head?, ¬ isContent c := by
    rintro c hc
    cases hc
    decide
  have hclosing : closing.isPrefixOf (closing ++ after) :=
    List.isPrefixOf_iff_prefix.2 (List.prefix_append _ _)
  have hsome : content.isEmpty = false := by simpa using hne
  simp only [elementLength?, hopening, hrest, takeWhile_run hblanks hend,
    takeWhile_run hcontent hstop, List.drop_left, hsome, hclosing, Bool.not_true,
    Bool.false_eq_true, if_false, or_self, List.length_append, List.length_cons,
    Option.some.injEq]
  omega

/-- What the length was told of is an element. -/
theorem exists_of_elementLength? (h : elementLength? cs = some n) :
    ∃ piece after, cs = piece ++ after ∧ IsElement piece ∧ piece.length = n := by
  rw [elementLength?] at h
  split at h
  case isTrue => cases h
  case isFalse hopening =>
    rw [Bool.not_eq_true, Bool.not_eq_false', List.isPrefixOf_iff_prefix] at hopening
    obtain ⟨rest, rfl⟩ := hopening
    simp only [List.drop_left, drop_length_takeWhile] at h
    split at h
    case h_2 => cases h
    case h_1 tail htail =>
      split at h
      case isTrue => cases h
      case isFalse hends =>
        rw [not_or, Bool.not_eq_true, Bool.not_eq_true, Bool.not_eq_false',
          List.isPrefixOf_iff_prefix] at hends
        obtain ⟨hne, after, hclosing⟩ := hends
        have hrest : rest = rest.takeWhile isBlank ++ '>' ::
            (tail.takeWhile isContent ++ closing ++ after) := by
          rw [List.append_assoc, hclosing, List.takeWhile_append_dropWhile, ← htail,
            List.takeWhile_append_dropWhile]
        refine ⟨opening ++ (rest.takeWhile isBlank ++ '>' ::
          (tail.takeWhile isContent ++ closing)), after, ?_, ⟨_, _, rfl, ?_, ?_, ?_⟩, ?_⟩
        · conv_lhs => rw [hrest]
          simp only [List.append_assoc, List.cons_append]
        · exact fun c hc => List.mem_takeWhile_imp hc
        · simpa using hne
        · exact fun c hc => List.mem_takeWhile_imp hc
        · rw [← Option.some.inj h]
          simp only [List.length_append, List.length_cons]
          omega

/-- Two elements at one place are one. -/
theorem IsElement.eq_of_append_eq (h : IsElement piece) (h' : IsElement piece')
    (heq : piece ++ after = piece' ++ after') : piece = piece' ∧ after = after' := by
  have hlength := elementLength?_of_isElement h after
  rw [heq, elementLength?_of_isElement h' after', Option.some.injEq] at hlength
  exact List.append_inj heq hlength.symm

/-- An element starts with `<h`. -/
theorem IsElement.exists_cons (h : IsElement piece) : ∃ rest, piece = '<' :: 'h' :: rest := by
  obtain ⟨blanks, content, rfl, -⟩ := h
  exact ⟨_, rfl⟩

theorem IsElement.ne_nil (h : IsElement piece) : piece ≠ [] := by
  obtain ⟨rest, rfl⟩ := h.exists_cons
  exact List.cons_ne_nil _ _

/-- **An element has `<` in two places**, its start and that of the closing tag,
where `/` follows. -/
theorem IsElement.exists_closing (h : IsElement piece) : ∃ inner tail,
    piece = '<' :: (inner ++ '<' :: '/' :: tail) ∧ '<' ∉ inner ∧ '<' ∉ tail := by
  obtain ⟨blanks, content, rfl, hblanks, -, hcontent⟩ := h
  refine ⟨"http-method".toList ++ (blanks ++ '>' :: content), "http-method>".toList, ?_, ?_, ?_⟩
  · have hopening : opening = '<' :: "http-method".toList := by decide
    have hclosing : closing = '<' :: '/' :: "http-method>".toList := by decide
    rw [hopening, hclosing]
    simp only [List.cons_append, List.append_assoc]
  · have hfree : ∀ {p : Char → Bool} {cs : List Char}, p '<' = false → (∀ c ∈ cs, p c) →
        '<' ∉ cs := fun hp hcs hmem => absurd (hcs _ hmem) (by rw [hp]; decide)
    rw [List.mem_append, List.mem_append, List.mem_cons, not_or, not_or, not_or]
    exact ⟨by decide, hfree (by decide) hblanks, by decide, hfree (by decide) hcontent⟩
  · decide

/-- **No element starts inside another one.** -/
theorem not_inside (h : IsElement (before ++ inner)) (hbefore : before ≠ []) (hinner : inner ≠ [])
    (after : List Char) : elementLength? (inner ++ after) = none := by
  by_contra hsome
  obtain ⟨n, hn⟩ := Option.ne_none_iff_exists'.1 hsome
  obtain ⟨piece, behind, heq, hpiece, -⟩ := exists_of_elementLength? hn
  obtain ⟨rest, rfl⟩ := hpiece.exists_cons
  obtain ⟨first, before, rfl⟩ := List.exists_cons_of_ne_nil hbefore
  obtain ⟨second, inner, rfl⟩ := List.exists_cons_of_ne_nil hinner
  obtain ⟨rfl, hinner'⟩ := List.cons.inj heq
  obtain ⟨middle, tail, hjoined, hmiddle, htail⟩ := h.exists_closing
  have hsplit : before ++ '<' :: inner = middle ++ '<' :: '/' :: tail := (List.cons.inj hjoined).2
  -- there is one `<` behind the first character, so both lists are cut at the same one
  have hfree : '<' ∉ before := by
    have hcount := congrArg (List.count '<') hsplit
    rw [List.count_append, List.count_append, List.count_cons_self, List.count_cons_self,
      List.count_cons_of_ne (by decide), List.count_eq_zero.2 hmiddle,
      List.count_eq_zero.2 htail] at hcount
    exact List.count_eq_zero.1 (by omega)
  obtain ⟨-, hbehind⟩ := append_inj_of_not_mem hfree hmiddle hsplit
  rw [hbehind] at hinner'
  cases hinner'

/-! ### The scan -/

theorem spansFrom_skip (o : Nat) (cs after : List Char) :
    spansFrom o cs.length (cs ++ after) = spansFrom (o + Text.byteSize cs) 0 after := by
  induction cs generalizing o with
  | nil => rfl
  | cons c cs ih =>
    rw [List.length_cons, List.cons_append, spansFrom, ih, Text.byteSize, Nat.add_assoc]

/-- **An element is found**, and the scan goes on behind it. -/
theorem spansFrom_of_isElement (h : IsElement piece) (o : Nat) (after : List Char) :
    spansFrom o 0 (piece ++ after) =
      ⟨o, o + Text.byteSize piece⟩ :: spansFrom (o + Text.byteSize piece) 0 after := by
  have hlength := elementLength?_of_isElement h after
  have htake : (piece ++ after).take piece.length = piece := List.take_left
  obtain ⟨c, cs, rfl⟩ := List.exists_cons_of_ne_nil h.ne_nil
  rw [List.cons_append] at hlength htake ⊢
  have hskip := spansFrom_skip (o + c.utf8Size) cs after
  rw [Nat.add_assoc] at hskip
  rw [spansFrom, hlength]
  dsimp only
  rw [htake, List.length_cons, Nat.add_sub_cancel, hskip]
  rfl

theorem spansFrom_of_none (h : elementLength? (c :: cs) = none) (o : Nat) :
    spansFrom o 0 (c :: cs) = spansFrom (o + c.utf8Size) 0 cs := by
  rw [spansFrom, h]

/-- **The way of a scan**: it goes on by one character where no element starts,
and by an element where one does. -/
theorem scan_induction {P : List Char → Prop} (nil : P [])
    (char : ∀ c cs, elementLength? (c :: cs) = none → P cs → P (c :: cs))
    (element : ∀ piece after, IsElement piece → P after → P (piece ++ after))
    (cs : List Char) : P cs := by
  induction hlength : cs.length using Nat.strongRecOn generalizing cs with
  | ind length ih =>
    cases cs with
    | nil => exact nil
    | cons c cs =>
      cases hstart : elementLength? (c :: cs) with
      | none =>
        refine char c cs hstart (ih cs.length ?_ cs rfl)
        rw [← hlength]
        exact Nat.lt_succ_self _
      | some n =>
        obtain ⟨piece, after, heq, hpiece, -⟩ := exists_of_elementLength? hstart
        rw [heq] at hlength ⊢
        refine element piece after hpiece (ih after.length ?_ after rfl)
        rw [← hlength, List.length_append]
        exact Nat.lt_add_of_pos_left (List.length_pos_iff.2 hpiece.ne_nil)

/-- **An element stands in a text**, behind the characters ahead of it. -/
def StandsIn (cs before piece : List Char) : Prop :=
  IsElement piece ∧ ∃ after, cs = before ++ piece ++ after

theorem not_standsIn_nil : ¬ StandsIn [] before piece := by
  rintro ⟨hpiece, after, heq⟩
  have hnil := List.append_eq_nil_iff.1 (List.append_eq_nil_iff.1 heq.symm).1
  exact hpiece.ne_nil hnil.2

/-- Where no element starts, all elements stand behind the first character, -/
theorem standsIn_cons_iff (h : elementLength? (c :: cs) = none) :
    StandsIn (c :: cs) before piece ↔ ∃ ahead, before = c :: ahead ∧ StandsIn cs ahead piece := by
  constructor
  · rintro ⟨hpiece, after, heq⟩
    cases before with
    | nil =>
      rw [heq, List.nil_append, elementLength?_of_isElement hpiece after] at h
      cases h
    | cons d ahead =>
      obtain ⟨rfl, hrest⟩ := List.cons.inj heq
      exact ⟨ahead, rfl, hpiece, after, hrest⟩
  · rintro ⟨ahead, rfl, hpiece, after, rfl⟩
    exact ⟨hpiece, after, rfl⟩

/-- and where one does, all the others stand behind it. -/
theorem standsIn_append_iff (h : IsElement piece) : StandsIn (piece ++ after) before piece' ↔
    (before = [] ∧ piece' = piece) ∨ ∃ ahead, before = piece ++ ahead ∧
      StandsIn after ahead piece' := by
  constructor
  · rintro ⟨hpiece', after', heq⟩
    rw [List.append_assoc] at heq
    rcases List.append_eq_append_iff.1 heq with ⟨ahead, rfl, hafter⟩ | ⟨inner, rfl, hbehind⟩
    · exact .inr ⟨ahead, rfl, hpiece', after', by rw [hafter, List.append_assoc]⟩
    · cases before with
      | nil => exact .inl ⟨rfl, ((IsElement.eq_of_append_eq h hpiece' heq).1).symm⟩
      | cons d before =>
        by_cases hinner : inner = []
        · subst hinner
          refine .inr ⟨[], by rw [List.append_nil, List.append_nil], hpiece', after', ?_⟩
          exact hbehind.symm
        · have hnone := not_inside h (List.cons_ne_nil d before) hinner after
          rw [← hbehind, elementLength?_of_isElement hpiece' after'] at hnone
          cases hnone
  · rintro (⟨rfl, rfl⟩ | ⟨ahead, rfl, hpiece', after', rfl⟩)
    · exact ⟨h, after, rfl⟩
    · exact ⟨hpiece', after', by simp only [List.append_assoc]⟩

/-- The span of an element that stands in a text from a byte offset on. -/
def spanAt (o : Nat) (before piece : List Char) : Span :=
  ⟨o + Text.byteSize before, o + Text.byteSize before + Text.byteSize piece⟩

/-- **The scan finds the elements that stand in a text**, and nothing else. -/
theorem mem_spansFrom : s ∈ spansFrom o 0 cs ↔
    ∃ before piece, StandsIn cs before piece ∧ s = spanAt o before piece := by
  induction cs using scan_induction generalizing o with
  | nil =>
    constructor
    · intro hs
      cases hs
    · rintro ⟨before, piece, hstands, -⟩
      exact absurd hstands not_standsIn_nil
  | char c cs hnone ih =>
    rw [spansFrom_of_none hnone, ih]
    constructor
    · rintro ⟨ahead, piece, hstands, rfl⟩
      refine ⟨c :: ahead, piece, (standsIn_cons_iff hnone).2 ⟨ahead, rfl, hstands⟩, ?_⟩
      simp only [spanAt, Text.byteSize, Nat.add_assoc]
    · rintro ⟨before, piece, hstands, rfl⟩
      obtain ⟨ahead, rfl, hrest⟩ := (standsIn_cons_iff hnone).1 hstands
      refine ⟨ahead, piece, hrest, ?_⟩
      simp only [spanAt, Text.byteSize, Nat.add_assoc]
  | element piece after hpiece ih =>
    rw [spansFrom_of_isElement hpiece, List.mem_cons, ih]
    constructor
    · rintro (rfl | ⟨ahead, piece', hstands, rfl⟩)
      · exact ⟨[], piece, (standsIn_append_iff hpiece).2 (.inl ⟨rfl, rfl⟩), rfl⟩
      · refine ⟨piece ++ ahead, piece',
          (standsIn_append_iff hpiece).2 (.inr ⟨ahead, rfl, hstands⟩), ?_⟩
        simp only [spanAt, Text.byteSize_append, Nat.add_assoc]
    · rintro ⟨before, piece', hstands, rfl⟩
      rcases (standsIn_append_iff hpiece).1 hstands with ⟨rfl, rfl⟩ | ⟨ahead, rfl, hrest⟩
      · exact .inl rfl
      · refine .inr ⟨ahead, piece', hrest, ?_⟩
        simp only [spanAt, Text.byteSize_append, Nat.add_assoc]

theorem start_of_mem_spansFrom (hs : s ∈ spansFrom o 0 cs) : o ≤ s.start ∧ s.start < s.stop := by
  obtain ⟨before, piece, ⟨hpiece, -⟩, rfl⟩ := mem_spansFrom.1 hs
  exact ⟨Nat.le_add_right _ _, Nat.lt_add_of_pos_right (Text.byteSize_pos hpiece.ne_nil)⟩

/-- **Elements stand one behind the other.** -/
theorem pairwise_spansFrom (o : Nat) (cs : List Char) :
    (spansFrom o 0 cs).Pairwise fun s t => s.stop ≤ t.start := by
  induction cs using scan_induction generalizing o with
  | nil => exact List.Pairwise.nil
  | char c cs hnone ih =>
    rw [spansFrom_of_none hnone]
    exact ih _
  | element piece after hpiece ih =>
    rw [spansFrom_of_isElement hpiece]
    exact List.Pairwise.cons (fun t ht => (start_of_mem_spansFrom ht).1) (ih _)

theorem not_overlaps (hs : s ∈ spans text) (ht : t ∈ spans text) (hne : s ≠ t) :
    ¬ s.overlaps t := by
  have hapart : (spans text).Pairwise Span.Apart :=
    (pairwise_spansFrom 0 text.toList).imp fun hle => .inl hle
  have : Std.Symm Span.Apart := ⟨fun _ _ => Span.Apart.symm⟩
  have hforward := (start_of_mem_spansFrom hs).2
  have hforward' := (start_of_mem_spansFrom ht).2
  rw [Span.overlaps_iff_of_apart hforward.le hforward'.le (hapart.forall hs ht hne)]
  rintro ⟨hempty, -⟩
  exact hforward.ne' hempty

/-- **The elements of a text are its slices that are elements.** -/
theorem mem_spans :
    s ∈ spans text ↔ ∃ piece, Text.slice? text s = some piece ∧ IsElement piece.toList := by
  rw [spans, mem_spansFrom]
  constructor
  · rintro ⟨before, piece, ⟨hpiece, after, htext⟩, rfl⟩
    refine ⟨String.ofList piece, Text.slice?_eq_some_iff.2
      ⟨String.ofList before, String.ofList after, ?_, ?_⟩, by rwa [String.toList_ofList]⟩
    · apply String.toList_inj.1
      simpa only [String.toList_append, String.toList_ofList] using htext
    · rw [spanAt, Nat.zero_add, Text.byteSize_eq, Text.byteSize_eq]
  · rintro ⟨piece, hslice, hpiece⟩
    obtain ⟨before, after, rfl, rfl⟩ := Text.slice?_eq_some_iff.1 hslice
    refine ⟨before.toList, piece.toList, ⟨hpiece, after.toList, ?_⟩, ?_⟩
    · rw [String.toList_append, String.toList_append]
    · rw [spanAt, Nat.zero_add, Text.byteSize_eq, Text.byteSize_eq, String.ofList_toList,
        String.ofList_toList]

end HttpMethod

end Remedy
