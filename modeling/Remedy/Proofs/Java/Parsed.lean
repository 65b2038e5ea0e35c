import Mathlib
import Remedy.Java.Parse
import Remedy.Proofs.Java.Readings
/-!
# What is known of a parsed tree

The tree of a text is laid out along it (`laidOut_of_parse`), comments
included, and the string literals in it are leaves (`isLeaf_of_parse`).
Both hold of what the grammar reads. A comment goes where no tree is cut by
it, so that it changes no span, and it enters no leaf.
-/

namespace Remedy

namespace Java

namespace Tree

/-! ### One comment more -/

/-- **The same tree but for its children**, of which it still has some or
still none. -/
structure Alike (t u : Tree) : Prop where
  kind : u.kind = t.kind
  span : u.span = t.span
  leaf : u.parts = [] ↔ t.parts = []

theorem Alike.refl (t : Tree) : t.Alike t := ⟨rfl, rfl, Iff.rfl⟩

theorem Alike.trans {s t u : Tree} (h : s.Alike t) (h' : t.Alike u) : s.Alike u :=
  ⟨h'.kind.trans h.kind, h'.span.trans h.span, h'.leaf.trans h.leaf⟩

variable {comment s t : Tree} {parts : List (Option Role × Tree)} {start stop : Nat}

theorem insertComment_eq (comment t : Tree) :
    insertComment comment t = .node t.kind t.span (insertCommentParts comment t.parts) := by
  cases t
  rfl

@[simp] theorem span_insertComment (comment t : Tree) :
    (insertComment comment t).span = t.span := by
  rw [insertComment_eq, span]

@[simp] theorem parts_insertComment (comment t : Tree) :
    (insertComment comment t).parts = insertCommentParts comment t.parts := by
  rw [insertComment_eq, Tree.parts]

theorem insertCommentParts_ne_nil (comment : Tree) (parts : List (Option Role × Tree)) :
    insertCommentParts comment parts ≠ [] := by
  cases parts with
  | nil => exact List.cons_ne_nil _ _
  | cons part parts =>
    rw [insertCommentParts]
    split_ifs <;> exact List.cons_ne_nil _ _

theorem alike_insertComment (ht : t.parts ≠ []) : t.Alike (insertComment comment t) := by
  rw [insertComment_eq]
  exact ⟨rfl, rfl, iff_of_false (insertCommentParts_ne_nil _ _) ht⟩

/-- A comment that starts before the end of a tree and does not end before
its start is within it, and the tree is no leaf. -/
theorem Clear.contains (h : t.Clear comment.span) (hstart : ¬ comment.span.stop ≤ t.span.start)
    (hstop : comment.span.start < t.span.stop) :
    t.span.start ≤ comment.span.start ∧ comment.span.stop ≤ t.span.stop ∧ t.parts ≠ [] := by
  have hbegin := h.start
  have hend := h.stop
  refine ⟨by omega, by omega, fun hleaf => ?_⟩
  rcases h.leaf hleaf with hapart | hapart <;> omega

theorem forall_mem_parts {P : Tree → Prop} (h : ∀ s ∈ t.preorder, P s) :
    ∀ s ∈ preorderParts t.parts, P s := fun s hs =>
  h s (mem_preorder.2 (.inr (mem_preorderParts.1 hs)))

theorem forall_mem_preorderParts_cons {P : Tree → Prop} {role : Option Role} :
    (∀ s ∈ preorderParts ((role, t) :: parts), P s) ↔
      (∀ s ∈ t.preorder, P s) ∧ ∀ s ∈ preorderParts parts, P s := by
  simp only [mem_preorderParts_cons, or_imp, forall_and]

/-- **Every tree after a comment was put in** is the comment, or was there
before with other children at most. -/
theorem exists_alike (hclear : ∀ s ∈ preorderParts parts, s.Clear comment.span) :
    ∀ u ∈ preorderParts (insertCommentParts comment parts),
      u ∈ comment.preorder ∨ ∃ s ∈ preorderParts parts, s.Alike u := by
  induction parts using inductParts with
  | nil => exact fun u hu => .inl (mem_preorderParts_singleton.1 hu)
  | cons role t parts iht ihparts =>
    obtain ⟨ht, hparts⟩ := forall_mem_preorderParts_cons.1 hclear
    have hself := ht t t.mem_preorder_self
    intro u hu
    rw [insertCommentParts] at hu
    split_ifs at hu with hbefore hwithin
    · exact (mem_preorderParts_cons.1 hu).imp_right fun hold => ⟨u, hold, .refl u⟩
    · rcases mem_preorderParts_cons.1 hu with hu | hu
      · rw [mem_preorder, ← mem_preorderParts, parts_insertComment] at hu
        rcases hu with rfl | hu
        · exact .inr ⟨t, mem_preorderParts_cons.2 (.inl t.mem_preorder_self),
            alike_insertComment (hself.contains hbefore hwithin).2.2⟩
        · refine (iht (forall_mem_parts ht) u hu).imp_right ?_
          rintro ⟨s, hs, halike⟩
          exact ⟨s, mem_preorderParts_cons.2 (.inl (mem_preorder.2
            (.inr (mem_preorderParts.1 hs)))), halike⟩
      · exact .inr ⟨u, mem_preorderParts_cons.2 (.inr hu), .refl u⟩
    · rcases mem_preorderParts_cons.1 hu with hu | hu
      · exact .inr ⟨u, mem_preorderParts_cons.2 (.inl hu), .refl u⟩
      · refine (ihparts hparts u hu).imp_right ?_
        rintro ⟨s, hs, halike⟩
        exact ⟨s, mem_preorderParts_cons.2 (.inr hs), halike⟩

/-- **A comment between two offsets is put among children there**, and all
are laid out again. -/
theorem Laid.insertComment (hcomment : comment.LaidOut)
    (hspan : comment.span.start ≤ comment.span.stop)
    (hclear : ∀ s ∈ preorderParts parts, s.Clear comment.span) (h : Laid start stop parts)
    (hstart : start ≤ comment.span.start) (hstop : comment.span.stop ≤ stop) :
    Laid start stop (insertCommentParts comment parts) := by
  induction parts using inductParts generalizing start stop with
  | nil => exact cons_iff.2 ⟨hstart, hspan, hcomment, .nil hstop⟩
  | cons role t parts iht ihparts =>
    obtain ⟨ht, hparts⟩ := forall_mem_preorderParts_cons.1 hclear
    have hself := ht t t.mem_preorder_self
    obtain ⟨htstart, htspan, htlaid, hrest⟩ := cons_iff.1 h
    rw [insertCommentParts]
    split_ifs with hbefore hwithin
    · exact cons_iff.2 ⟨hstart, hspan, hcomment, cons_iff.2 ⟨hbefore, htspan, htlaid, hrest⟩⟩
    · obtain ⟨hbegin, hend, -⟩ := hself.contains hbefore hwithin
      have hinner := iht (forall_mem_parts ht) (laidOut_iff.1 htlaid) hbegin hend
      rw [cons_iff, laidOut_iff, span_insertComment, parts_insertComment]
      exact ⟨htstart, htspan, hinner, hrest⟩
    · exact cons_iff.2 ⟨htstart, htspan, htlaid, ihparts hparts hrest (by omega) hstop⟩

theorem Clear.alike {hole : Span} {u : Tree} (h : s.Clear hole) (hu : s.Alike u) :
    u.Clear hole where
  start := hu.span ▸ h.start
  stop := hu.span ▸ h.stop
  leaf hleaf := hu.span ▸ h.leaf (hu.leaf.1 hleaf)

end Tree

/-! ### All comments -/

open Java.Tree (Laid preorderParts insertCommentParts)

/-- **Children that comments can be put among**: they are laid out and
clear of the comments, and their string literals are leaves. -/
structure Commentable (start stop : Nat) (comments : List Token) (parts : Parts) : Prop where
  laid : Laid start stop parts
  clear : ∀ c ∈ comments, ∀ s ∈ preorderParts parts, s.Clear c.span
  literal : ∀ s ∈ preorderParts parts, s.kind = .stringLiteral → s.parts = []

namespace Commentable

variable {start stop : Nat} {c : Token} {cs : List Token} {parts : Parts}

/-- **The next comment is put in.** -/
theorem insert (h : Commentable start stop (c :: cs) parts)
    (hcomments : Tokenized start stop (c :: cs)) :
    Commentable start stop cs (insertCommentParts (commentTree c) parts) := by
  have hspan : c.span.start ≤ c.span.stop := hcomments.ordered.head_sized.start_le
  have hclear := h.clear c List.mem_cons_self
  have halike : ∀ u ∈ preorderParts (insertCommentParts (commentTree c) parts),
      u ∈ (commentTree c).preorder ∨ ∃ s ∈ preorderParts parts, s.Alike u :=
    Tree.exists_alike hclear
  refine ⟨?_, fun d hd u hu => ?_, fun u hu hkind => ?_⟩
  · exact h.laid.insertComment (Tree.laidOut_iff.2 (.nil hspan)) hspan hclear
      (hcomments.start_le c List.mem_cons_self) (hcomments.le_stop c List.mem_cons_self)
  · rcases halike u hu with hu | ⟨s, hs, hsu⟩
    · rw [Tree.eq_of_mem_leaf rfl hu]
      exact .of_leaf hspan (.inl (hcomments.ordered.head_stop_le hd))
    · exact (h.clear d (List.mem_cons_of_mem _ hd) s hs).alike hsu
  · rcases halike u hu with hu | ⟨s, hs, hsu⟩
    · rw [Tree.eq_of_mem_leaf rfl hu]
      rfl
    · exact hsu.leaf.2 (h.literal s hs (hsu.kind ▸ hkind))

/-- **All comments are put in.** -/
theorem foldl {tree : Tree} (h : Commentable start stop cs tree.parts)
    (hcomments : Tokenized start stop cs) :
    Commentable start stop [] ((cs.map commentTree).foldl
      (fun t c => Tree.insertComment c t) tree).parts := by
  induction cs generalizing tree with
  | nil => exact h
  | cons c cs ih =>
    rw [List.map_cons, List.foldl_cons]
    refine ih ?_ hcomments.tail
    rw [Tree.parts_insertComment]
    exact h.insert hcomments

/-- **Every tree after all comments were put in** is one of them, or was there
before with other children at most. -/
theorem exists_alike {tree : Tree} (h : Commentable start stop cs tree.parts)
    (hcomments : Tokenized start stop cs) :
    ∀ u ∈ preorderParts ((cs.map commentTree).foldl
        (fun t c => Tree.insertComment c t) tree).parts,
      (∃ c ∈ cs, (commentTree c).Alike u) ∨ ∃ s ∈ preorderParts tree.parts, s.Alike u := by
  induction cs generalizing tree with
  | nil => exact fun u hu => .inr ⟨u, hu, .refl u⟩
  | cons c cs ih =>
    rw [List.map_cons, List.foldl_cons]
    have hparts : Commentable start stop cs (Tree.insertComment (commentTree c) tree).parts := by
      rw [Tree.parts_insertComment]
      exact h.insert hcomments
    intro u hu
    rcases ih hparts hcomments.tail u hu with ⟨d, hd, hdu⟩ | ⟨s, hs, hsu⟩
    · exact .inl ⟨d, List.mem_cons_of_mem _ hd, hdu⟩
    · rw [Tree.parts_insertComment] at hs
      rcases Tree.exists_alike (h.clear c List.mem_cons_self) s hs with hs | ⟨t, ht, hts⟩
      · rw [Tree.eq_of_mem_leaf rfl hs] at hsu
        exact .inl ⟨c, List.mem_cons_self, hsu⟩
      · exact .inr ⟨t, ht, hts.trans hsu⟩

end Commentable

/-! ### The tree of a text -/

/-- No pattern puts a string literal over other trees. -/
theorem stringLiteral_not_mem_covers (r : Rule) : Kind.stringLiteral ∉ (grammar r).covers := by
  cases r <;> decide +kernel

theorem programOf?_eq_some {a : Attempt} {tree : Tree} (h : programOf? a = some tree) :
    ∃ role last, a.result = some ([(role, tree)], [last]) := by
  rw [programOf?] at h
  split at h
  · next role _ last hresult =>
    split_ifs at h
    cases h
    exact ⟨role, last, hresult⟩
  · cases h

/-- A token that stays is apart from one that does not. -/
theorem avoids_filter {ts : List Token} (h : Ordered ts) {c : Token} (hc : c ∈ ts)
    (hcomment : c.isComment) : Avoids c.span (ts.filter fun t => !t.isComment) := by
  refine ⟨h.filter _, fun t ht => ?_⟩
  obtain ⟨ht, hplain⟩ := List.mem_filter.1 ht
  refine h.apart ht hc fun heq => ?_
  rw [heq, hcomment] at hplain
  cases hplain

/-- The comments of a text. -/
def commentsOf (text : String) : List Token := (tokens text).filter Token.isComment

/-- **What is read of a text**, before its comments are put in: they can be
put among the children. -/
theorem exists_read_of_parse {text : String} {tree : Tree} (h : parse text = .ok tree) :
    ∃ role read last,
      Reads grammar Grammar.program ((tokens text).filter fun t => !t.isComment)
        [(role, read)] [last] ∧
      Commentable (positionOf (tokens text)) text.utf8ByteSize (commentsOf text) read.parts ∧
      tree = rooted (((commentsOf text).map commentTree).foldl
        (fun t c => Tree.insertComment c t) read) (positionOf (tokens text)) text.utf8ByteSize := by
  have hall := (tokenized_tokens text).tighten
  rw [parse] at h
  dsimp only at h
  split at h
  · next read hread =>
    cases h
    obtain ⟨role, last, hresult⟩ := programOf?_eq_some hread
    have hreads := reads_of_run hresult
    have hplain := hall.filter fun t => !t.isComment
    have hbelow : ∀ s ∈ preorderParts read.parts, s ∈ preorderParts [(role, read)] := fun s hs =>
      Tree.mem_preorderParts_singleton.2 (Tree.mem_preorder.2 (.inr (Tree.mem_preorderParts.1 hs)))
    refine ⟨role, read, last, hreads, ⟨?_, fun c hc s hs => ?_, fun s hs => ?_⟩, rfl⟩
    · have hrest : [last] ≠ [] := List.cons_ne_nil _ _
      obtain ⟨hstart, -, hlaid, hstop⟩ := Laid.cons_iff.1 (hreads.laid hplain.ordered hrest)
      have hlast := hreads.within hplain.le_stop last List.mem_cons_self
      have hforward := (hreads.ordered hplain.ordered).head_sized.start_le
      exact (Tree.laidOut_iff.1 hlaid).widen
        ((le_positionOf (hreads.ne_nil hrest) hplain.start_le).trans hstart)
        ((hstop.between.trans hforward).trans hlast)
    · obtain ⟨hc, hcomment⟩ := List.mem_filter.1 hc
      exact hreads.clear (hall.start_lt_stop hc hcomment)
        (avoids_filter hall.ordered hc hcomment) s (hbelow s hs)
    · exact hreads.isLeaf stringLiteral_not_mem_covers (by decide +kernel) s (hbelow s hs)
  · cases h

/-- **What comes of a text**: children between its first token and its
end. -/
theorem exists_of_parse {text : String} {tree : Tree} (h : parse text = .ok tree) :
    ∃ start parts, tree = .node .program ⟨start, text.utf8ByteSize⟩ parts ∧
      Commentable start text.utf8ByteSize [] parts := by
  obtain ⟨role, read, last, -, hread, rfl⟩ := exists_read_of_parse h
  have hcomments := (tokenized_tokens text).tighten.filter Token.isComment
  exact ⟨_, _, rfl, hread.foldl hcomments⟩

/-- **The tree of a text is laid out along it.** -/
theorem laidOut_of_parse {text : String} {tree : Tree} (h : parse text = .ok tree) :
    tree.LaidOut := by
  obtain ⟨start, parts, rfl, hparts⟩ := exists_of_parse h
  exact Tree.laidOut_iff.2 hparts.laid

/-- **The string literals of a text are leaves.** -/
theorem isLeaf_of_parse {text : String} {tree s : Tree} (h : parse text = .ok tree)
    (hs : s ∈ tree.preorder) (hkind : s.kind = .stringLiteral) : s.parts = [] := by
  obtain ⟨start, parts, rfl, hparts⟩ := exists_of_parse h
  rcases Tree.mem_preorder.1 hs with rfl | hs
  · cases hkind
  · exact hparts.literal s (Tree.mem_preorderParts.2 hs) hkind

end Java

end Remedy
