import Mathlib
import Remedy.Proofs.Java.Parsed
/-!
# Every tree covers a byte

No token of a text is empty but the one that ends it. No rule of the grammar
puts a tree over nothing (`fills_grammar`), so all trees below the root of a
parsed text cover a byte (`start_lt_stop_of_parse`). A tree with two children
then is longer than any other tree in it (`Tree.Spread.length_lt`).
-/

namespace Remedy

namespace Java

/-! ### Tokens -/

/-- **Tokens of which all but the last cover a byte.** -/
def Covering (ts : List Token) : Prop := ∀ t ∈ ts.dropLast, t.span.start < t.span.stop

namespace Covering

variable {t : Token} {ts : List Token}

theorem cons (ht : t.span.start < t.span.stop) (hts : Covering ts) : Covering (t :: ts) := by
  cases ts with
  | nil => exact fun u hu => by cases hu
  | cons u us =>
    rw [Covering, List.dropLast_cons_of_ne_nil (List.cons_ne_nil u us)]
    exact List.forall_mem_cons.2 ⟨ht, hts⟩

theorem tail (h : Covering (t :: ts)) : Covering ts := by
  cases ts with
  | nil => exact fun u hu => by cases hu
  | cons u us =>
    rw [Covering, List.dropLast_cons_of_ne_nil (List.cons_ne_nil u us)] at h
    exact (List.forall_mem_cons.1 h).2

/-- A token with others behind it covers a byte. -/
theorem head (h : Covering (t :: ts)) (hts : ts ≠ []) : t.span.start < t.span.stop :=
  h t (by rw [List.dropLast_cons_of_ne_nil hts]; exact List.mem_cons_self)

end Covering

/-- The tokens of some characters cover a byte each, but for the end of the
text behind them. -/
theorem exists_tokensFrom (offset : Nat) (cs : List Char) (fuel : Nat) :
    ∃ ts stop, tokensFrom [] offset cs fuel = ts ++ [⟨.endOfText, "", ⟨stop, stop⟩⟩] ∧
      ∀ t ∈ ts, t.span.start < t.span.stop := by
  induction fuel generalizing offset cs with
  | zero => exact ⟨[], offset, rfl, nofun⟩
  | succ fuel ih =>
    cases cs with
    | nil => exact ⟨[], offset, rfl, nofun⟩
    | cons c cs =>
      rw [tokensFrom]
      split
      · exact ih (offset + 1) cs
      · dsimp only
        rw [tokensFrom_eq, List.reverse_singleton, List.singleton_append]
        have hpos := first_length_pos (List.cons_ne_nil c cs)
        obtain ⟨ts, stop, hts, hcover⟩ := ih
          (offset + Text.byteSize ((c :: cs).take (first (c :: cs)).2))
          ((c :: cs).drop (first (c :: cs)).2)
        refine ⟨_ :: ts, stop, by rw [hts, List.cons_append], List.forall_mem_cons.2 ⟨?_, hcover⟩⟩
        obtain ⟨n, hn⟩ := Nat.exists_eq_succ_of_ne_zero hpos.ne'
        have hsize := c.utf8Size_pos
        simp only [hn, List.take_succ_cons, Text.byteSize]
        omega

/-- **The tokens that are no comments cover a byte each**, but for the end
of the text. -/
theorem covering_tokens (text : String) :
    Covering ((tokens text).filter fun t => !t.isComment) := by
  have hall : ∃ ts stop, tokens text = ts ++ [⟨.endOfText, "", ⟨stop, stop⟩⟩] ∧
      ∀ t ∈ ts, t.span.start < t.span.stop := by
    rw [tokens]
    split <;> exact exists_tokensFrom _ _ _
  obtain ⟨ts, stop, hts, hcover⟩ := hall
  intro t ht
  rw [hts, List.filter_append, List.filter_cons_of_pos (by rfl), List.filter_nil,
    List.dropLast_concat] at ht
  exact hcover t (List.mem_of_mem_filter ht)

/-! ### Patterns -/

namespace Pattern

variable {Rule : Type}

mutual

/-- Whether a pattern reads a tree at least. -/
def takes : Pattern Rule → Bool
  | .token _ | .adjacent _ | .closeAngle | .leaf _ _ | .only _ _ | .node _ _ | .rule _ => true
  | .many _ | .ahead _ | .notAhead _ => false
  | .seq ps => takesSome ps
  | .choice ps => takesEach ps
  | .as _ p => p.takes
  | .nested first _ => first.takes

/-- Whether one of some patterns reads a tree. -/
def takesSome : List (Pattern Rule) → Bool
  | [] => false
  | p :: ps => p.takes || takesSome ps

/-- Whether each of some patterns reads a tree. -/
def takesEach : List (Pattern Rule) → Bool
  | [] => true
  | p :: ps => p.takes && takesEach ps

end

mutual

/-- Whether a pattern puts trees over trees and tokens only, and never over
nothing. -/
def fills : Pattern Rule → Bool
  | .token _ | .closeAngle | .leaf _ _ | .rule _ => true
  | .adjacent texts => !texts.isEmpty
  | .seq ps | .choice ps => fillsAll ps
  | .many p | .ahead p | .notAhead p | .only _ p | .as _ p => p.fills
  | .node _ p => p.takes && p.fills
  | .nested first steps => first.fills && fillsSteps steps

/-- Whether some patterns never put a tree over nothing. -/
def fillsAll : List (Pattern Rule) → Bool
  | [] => true
  | p :: ps => p.fills && fillsAll ps

/-- Whether continuations never put a tree over nothing. -/
def fillsSteps : List (Kind × List Kind × Option Role × Pattern Rule) → Bool
  | [] => true
  | (_, _, _, p) :: steps => p.fills && fillsSteps steps

end

variable {p : Pattern Rule} {ps : List (Pattern Rule)} {kind : Kind} {kinds : List Kind}
variable {part : Option Role} {steps : List (Kind × List Kind × Option Role × Pattern Rule)}

theorem takes_of_takesEach (h : takesEach ps) (hp : p ∈ ps) : p.takes := by
  induction ps with
  | nil => cases hp
  | cons q ps ih =>
    rw [takesEach, Bool.and_eq_true] at h
    rcases List.mem_cons.1 hp with rfl | hp
    · exact h.1
    · exact ih h.2 hp

theorem fills_of_fillsAll (h : fillsAll ps) (hp : p ∈ ps) : p.fills := by
  induction ps with
  | nil => cases hp
  | cons q ps ih =>
    rw [fillsAll, Bool.and_eq_true] at h
    rcases List.mem_cons.1 hp with rfl | hp
    · exact h.1
    · exact ih h.2 hp

theorem fills_of_fillsSteps (h : fillsSteps steps) (hp : (kind, kinds, part, p) ∈ steps) :
    p.fills := by
  induction steps with
  | nil => cases hp
  | cons step steps ih =>
    obtain ⟨kind', kinds', part', q⟩ := step
    rw [fillsSteps, Bool.and_eq_true] at h
    rcases List.mem_cons.1 hp with heq | hp
    · cases heq
      exact h.1
    · exact ih h.2 hp

end Pattern

section Reading

variable {Rule : Type} {grammar : Rule → Pattern Rule} {p : Pattern Rule}
variable {input rest : List Token} {parts : Parts}

/-- What a pattern that takes a tree reads is some tree. -/
theorem Reads.parts_ne_nil (hgrammar : ∀ r, (grammar r).takes)
    (h : Reads grammar p input parts rest) (hp : p.takes) : parts ≠ [] := by
  induction h with
  | token | adjacent | closeAngle | leaf | only | node | continuation => exact List.cons_ne_nil _ _
  | seqNil | manyStop | ahead | notAhead | manyMore => cases hp
  | seqCons _ _ ih ihmore =>
    rw [Pattern.takes, Pattern.takesSome, Bool.or_eq_true] at hp
    rcases hp with hp | hp
    · exact List.append_ne_nil_of_left_ne_nil (ih hp) _
    · exact List.append_ne_nil_of_right_ne_nil _ (ihmore hp)
  | choice hmem _ ih => exact ih (Pattern.takes_of_takesEach hp hmem)
  | as _ ih => exact fun hnil => ih hp (List.map_eq_nil_iff.1 hnil)
  | operand _ ih => exact ih hp
  | rule _ ih => exact ih (hgrammar _)

/-- **Reading leaves tokens of which all but the last cover a byte.** -/
theorem Reads.covering (h : Reads grammar p input parts rest) (hordered : Ordered input)
    (hinput : Covering input) : Covering rest := by
  refine (h.keeps (I := fun ts => Ordered ts ∧ Covering ts)
    (fun _ _ hts => ⟨hts.1.tail, hts.2.tail⟩) ?_ ⟨hordered, hinput⟩).2
  rintro input tree rest hread ⟨hordered, hinput⟩
  refine ⟨(hordered.takeAngle hread).1, ?_⟩
  obtain ⟨t, ts, more, rfl, htext, -, ⟨-, rfl⟩ | ⟨hmore, rfl⟩⟩ := takeAngle_eq_some hread
  · exact hinput.tail
  · refine .cons ?_ hinput.tail
    have hsize := hordered.head_sized.angle htext
    have hbytes : (String.ofList more).utf8ByteSize ≠ 0 := fun hzero =>
      hmore (String.ofList_eq_empty_iff.1 (String.utf8ByteSize_eq_zero_iff.1 hzero))
    dsimp only
    omega

/-- Adjacent tokens with others behind them cover a byte. -/
theorem start_lt_stop_of_adjacentTokens {texts : List String} {tree : Tree}
    (htexts : texts ≠ []) (hrest : rest ≠ []) (hordered : Ordered input) (hinput : Covering input)
    (h : adjacentTokens texts (positionOf input) (positionOf input) "" input = some (tree, rest)) :
    tree.parts = [] ∧ tree.span.start < tree.span.stop := by
  cases texts with
  | nil => exact absurd rfl htexts
  | cons text texts =>
    cases input with
    | nil => cases h
    | cons t ts =>
      simp only [adjacentTokens] at h
      split at h
      case isFalse => cases h
      case isTrue =>
        -- the first token covers a byte, as there are others behind it
        obtain ⟨_, stop, rfl, -, hstop⟩ := adjacentTokens_induct
          (M := fun offset us => Ordered us ∧ (us ≠ [] → positionOf (t :: ts) < offset))
          (fun u us h => ⟨h.1.tail, fun _ =>
            (h.2 (List.cons_ne_nil u us)).trans_le h.1.head_sized.start_le⟩)
          h ⟨hordered.tail, hinput.head⟩
        exact ⟨rfl, hstop hrest⟩

/-- A tree over trees that stand one after the other covers a byte if they
do. -/
theorem start_lt_stop_treeOver {kind : Kind} {start stop position : Nat}
    (hparts : parts ≠ []) (hlaid : Tree.Laid start stop parts)
    (hcover : ∀ s ∈ Tree.preorderParts parts, s.span.start < s.span.stop) :
    ∀ s ∈ (treeOver kind parts position).preorder, s.span.start < s.span.stop := by
  intro s hs
  rcases mem_preorder_treeOver.1 hs with rfl | hs
  · obtain ⟨part, more, rfl⟩ := List.exists_cons_of_ne_nil hparts
    have hfirst := hcover part.2 (Tree.mem_preorderParts_cons.2 (.inl part.2.mem_preorder_self))
    have hrow := (Tree.between_tighten hlaid.between).of_mem List.mem_cons_self
    rw [treeOver_cons]
    exact hfirst.trans_le hrow.2.2
  · exact hcover s hs

/-- **Every tree that is read covers a byte**, if no pattern puts a tree over
nothing. -/
theorem Reads.start_lt_stop (htakes : ∀ r, (grammar r).takes) (hfills : ∀ r, (grammar r).fills)
    (h : Reads grammar p input parts rest) (hp : p.fills) (hrest : rest ≠ [])
    (hordered : Ordered input) (hinput : Covering input) :
    ∀ s ∈ Tree.preorderParts parts, s.span.start < s.span.stop := by
  have hleaf : ∀ {kind span role}, span.start < span.stop →
      ∀ s ∈ Tree.preorderParts [(role, .node kind span [])], s.span.start < s.span.stop := by
    intro kind span role hspan s hs
    rw [Tree.eq_of_mem_leaf rfl (Tree.mem_preorderParts_singleton.1 hs)]
    exact hspan
  induction h with
  | token => exact hleaf (hinput.head hrest)
  | leaf => exact hleaf (hinput.head hrest)
  | @adjacent texts _ _ _ hread =>
    have htexts : texts ≠ [] := fun hnil => by
      rw [Pattern.fills, hnil] at hp
      cases hp
    obtain ⟨hparts, hspan⟩ := start_lt_stop_of_adjacentTokens htexts hrest hordered hinput hread
    intro s hs
    rw [Tree.eq_of_mem_leaf hparts (Tree.mem_preorderParts_singleton.1 hs)]
    exact hspan
  | closeAngle hread =>
    obtain ⟨t, _, _, -, -, rfl, -⟩ := takeAngle_eq_some hread
    exact hleaf (Nat.lt_succ_self _)
  | seqNil | manyStop | ahead | notAhead =>
    intro s hs
    cases hs
  | seqCons hfirst hmore ih ihmore =>
    rw [Pattern.fills, Pattern.fillsAll, Bool.and_eq_true] at hp
    intro s hs
    exact (Tree.mem_preorderParts_append.1 hs).elim
      (ih hp.1 (hmore.ne_nil hrest) hordered hinput s)
      (ihmore hp.2 hrest (hfirst.ordered hordered) (hfirst.covering hordered hinput) s)
  | manyMore hfirst hmore ih ihmore =>
    intro s hs
    exact (Tree.mem_preorderParts_append.1 hs).elim
      (ih hp (hmore.ne_nil hrest) hordered hinput s)
      (ihmore hp hrest (hfirst.ordered hordered) (hfirst.covering hordered hinput) s)
  | choice hmem _ ih => exact ih (Pattern.fills_of_fillsAll hp hmem) hrest hordered hinput
  | only _ _ ih => exact ih hp hrest hordered hinput
  | node hread ih =>
    rw [Pattern.fills, Bool.and_eq_true] at hp
    intro s hs
    exact start_lt_stop_treeOver (hread.parts_ne_nil htakes hp.1) (hread.laid hordered hrest)
      (ih hp.2 hrest hordered hinput) s (Tree.mem_preorderParts_singleton.1 hs)
  | as _ ih => exact fun s hs => ih hp hrest hordered hinput s (mem_preorderParts_label.1 hs)
  | operand _ ih =>
    rw [Pattern.fills, Bool.and_eq_true] at hp
    exact ih hp.1 hrest hordered hinput
  | rule _ ih => exact ih (hfills _) hrest hordered hinput
  | @continuation _ _ _ _ _ _ _ part tree _ _ parts hstep htree hmore ih ihmore =>
    have hmid := hmore.ne_nil hrest
    have hfirst := ih hp hmid hordered hinput
    rw [Pattern.fills, Bool.and_eq_true] at hp
    have hbehind := ihmore (Pattern.fills_of_fillsSteps hp.2 hstep) hrest
      (htree.ordered hordered) (htree.covering hordered hinput)
    have hlaid := (htree.laid hordered hmid).cons (hmore.laid (htree.ordered hordered) hrest) part
    refine fun s hs => start_lt_stop_treeOver (List.cons_ne_nil _ _) hlaid (fun u hu => ?_) s
      (Tree.mem_preorderParts_singleton.1 hs)
    rcases Tree.mem_preorderParts_cons.1 hu with hu | hu
    · exact hfirst u (Tree.mem_preorderParts_singleton.2 hu)
    · exact hbehind u hu

end Reading

/-! ### Trees that are spread out -/

namespace Tree

variable {t s : Tree} {part other : Option Role × Tree}

/-- **A tree spread out along a text**: it is laid out, and all trees below
it cover a byte. -/
structure Spread (t : Tree) : Prop where
  laidOut : t.LaidOut
  covers : ∀ s ∈ preorderParts t.parts, s.span.start < s.span.stop

namespace Spread

theorem of_mem (h : t.Spread) (hs : s ∈ t.preorder) : s.Spread where
  laidOut := h.laidOut.of_mem hs
  covers u hu := by
    rcases mem_preorder.1 hs with rfl | hs
    · exact h.covers u hu
    · exact h.covers u
        (preorderParts_trans (mem_preorder_of_preorderParts hu) (mem_preorderParts.2 hs))

theorem child (h : t.Spread) (hpart : part ∈ t.parts) : part.2.Spread :=
  h.of_mem (mem_preorder_of_part hpart part.2.mem_preorder_self)

theorem covers_child (h : t.Spread) (hpart : part ∈ t.parts) :
    part.2.span.start < part.2.span.stop :=
  h.covers part.2 (mem_preorderParts.2 ⟨part, hpart, part.2.mem_preorder_self⟩)

/-- A tree is longer than what is in one of two children. -/
theorem length_lt_of_part (h : t.Spread) (hpart : part ∈ t.parts) (hother : other ∈ t.parts)
    (hne : part ≠ other) (hs : s ∈ part.2.preorder) : s.span.length < t.span.length := by
  have hapart : part.2.span.Apart other.2.span := by
    by_contra hoverlap
    exact hne (h.laidOut.eq_of_overlap hpart hother hoverlap)
  have hfirst := h.covers_child hpart
  have hsecond := h.covers_child hother
  have hin := (h.laidOut.child hpart).within hs
  have hpartIn := h.laidOut.child_within hpart
  have hotherIn := h.laidOut.child_within hother
  rw [Span.Apart] at hapart
  rw [Span.length, Span.length]
  omega

/-- **A tree with two children is longer than any other tree in it.** -/
theorem length_lt (h : t.Spread) (hpart : part ∈ t.parts) (hother : other ∈ t.parts)
    (hne : part ≠ other) (hs : s ∈ t.preorder) (hst : s ≠ t) : s.span.length < t.span.length := by
  obtain ⟨p, hp, hs⟩ := (mem_preorder.1 hs).resolve_left hst
  by_cases heq : p = part
  · exact h.length_lt_of_part hp hother (heq ▸ hne) hs
  · exact h.length_lt_of_part hp hpart heq hs

/-- **The bytes of a child tell its parent**, if the parent has another
child. -/
theorem parent_unique {p p' : Tree} {part' other' : Option Role × Tree} (h : t.Spread)
    (hp : p ∈ t.preorder) (hp' : p' ∈ t.preorder) (hpart : part ∈ p.parts)
    (hpart' : part' ∈ p'.parts) (hother : other ∈ p.parts) (hother' : other' ∈ p'.parts)
    (hne : part ≠ other) (hne' : part' ≠ other') (hspan : part.2.span = part'.2.span) : p = p' := by
  -- an inner parent would be in the child of the outer one, and no longer than its own child
  have hinner : ∀ {p p' : Tree} {part part' other' : Option Role × Tree}, p.Spread →
      p' ∈ p.preorder → part ∈ p.parts → part' ∈ p'.parts → other' ∈ p'.parts →
      part' ≠ other' → part.2.span = part'.2.span → p' = p := by
    intro p p' part part' other' hown hin hpart hpart' hother' hne' hspan
    by_contra hout
    have hown' := hown.of_mem hin
    have hchild := hown'.laidOut.contains
      (mem_preorder_of_part hpart' part'.2.mem_preorder_self)
    rw [← hspan] at hchild
    have hbelow := hown.laidOut.mem_of_overlap hin hout hpart
      (Span.not_apart_of_contains (hown.covers_child hpart) hchild
        (Span.contains_iff.2 ⟨Nat.le_refl _, Nat.le_refl _⟩))
    have hlong := Span.length_le_of_contains ((hown.child hpart).laidOut.contains hbelow)
    have hshort := hown'.length_lt_of_part hpart' hother' hne' part'.2.mem_preorder_self
    rw [hspan] at hlong
    omega
  have hin := (h.of_mem hp).laidOut.contains (mem_preorder_of_part hpart part.2.mem_preorder_self)
  have hin' := (h.of_mem hp').laidOut.contains
    (mem_preorder_of_part hpart' part'.2.mem_preorder_self)
  rw [← hspan] at hin'
  rcases h.laidOut.mem_or_mem_of_contains hp hp' ((h.of_mem hp).covers_child hpart) hin hin' with
    hbelow | hbelow
  · exact hinner (h.of_mem hp') hbelow hpart' hpart hother hne hspan.symm
  · exact (hinner (h.of_mem hp) hbelow hpart hpart' hother' hne' hspan).symm

/-- A child that covers all of the tree is the only one. -/
theorem parts_eq_singleton (h : t.Spread) (hpart : part ∈ t.parts)
    (hwide : part.2.span.contains t.span) : t.parts = [part] := by
  rw [Span.contains_iff] at hwide
  have hall : ∀ p ∈ t.parts, p = part := by
    intro p hp
    have hbytes := h.covers_child hp
    have hin := h.laidOut.child_within hp
    refine h.laidOut.eq_of_overlap hp hpart fun hapart => ?_
    rw [Span.Apart] at hapart
    omega
  have hrow := h.laidOut.inOrder.pairwise
  rw [spansOf, List.pairwise_map] at hrow
  have hbytes := h.covers_child hpart
  cases hparts : t.parts with
  | nil =>
    rw [hparts] at hpart
    cases hpart
  | cons p ps =>
    rw [hparts] at hall hrow
    obtain rfl := hall p List.mem_cons_self
    cases ps with
    | nil => rfl
    | cons q ps =>
      -- a second child would stand behind the first, and be it
      have hbehind := (List.pairwise_cons.1 hrow).1 q List.mem_cons_self
      rw [hall q (List.mem_cons_of_mem _ List.mem_cons_self)] at hbehind
      omega

end Spread

end Tree

/-! ### The grammar of a text -/

/-- Every rule reads a tree at least. -/
theorem takes_grammar (r : Rule) : (grammar r).takes := by
  cases r <;> decide +kernel

/-- **No rule puts a tree over nothing.** -/
theorem fills_grammar (r : Rule) : (grammar r).fills := by
  cases r <;> decide +kernel

/-- **What is read of a text is spread out**, before its comments are put
in. -/
theorem spread_of_reads {text : String} {role : Option Role} {read : Tree} {last : Token}
    (hreads : Reads grammar Grammar.program ((tokens text).filter fun t => !t.isComment)
      [(role, read)] [last])
    (hread : Commentable (positionOf (tokens text)) text.utf8ByteSize (commentsOf text)
      read.parts) :
    (rooted read (positionOf (tokens text)) text.utf8ByteSize).Spread where
  laidOut := Tree.laidOut_iff.2 hread.laid
  covers := by
    have hplain := (tokenized_tokens text).ordered.filter fun t => !t.isComment
    -- the root may cover nothing, so the law is that of the reading below it
    rw [Grammar.program] at hreads
    cases hreads with
    | node hparts =>
      rw [rooted, Tree.parts, parts_treeOver]
      exact hparts.start_lt_stop takes_grammar fills_grammar (by decide +kernel)
        (List.cons_ne_nil _ _) hplain (covering_tokens text)

/-- **Every tree below the root of a text covers a byte.** -/
theorem start_lt_stop_of_parse {text : String} {tree s : Tree} (h : parse text = .ok tree)
    (hs : s ∈ Tree.preorderParts tree.parts) : s.span.start < s.span.stop := by
  obtain ⟨role, read, last, hreads, hread, rfl⟩ := exists_read_of_parse h
  have hcomments := (tokenized_tokens text).tighten.filter Token.isComment
  rcases hread.exists_alike hcomments s hs with ⟨c, hc, halike⟩ | ⟨t, ht, halike⟩
  · rw [halike.span]
    exact hcomments.start_lt_stop hc (List.mem_filter.1 hc).2
  · rw [halike.span]
    exact (spread_of_reads hreads hread).covers t ht

/-- **The tree of a text is spread out.** -/
theorem spread_of_parse {text : String} {tree : Tree} (h : parse text = .ok tree) : tree.Spread :=
  ⟨laidOut_of_parse h, fun _ hs => start_lt_stop_of_parse h hs⟩

end Java

end Remedy
