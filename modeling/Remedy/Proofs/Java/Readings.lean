import Mathlib
import Remedy.Proofs.Java.Derivation
import Remedy.Proofs.Java.Tokens
/-!
# Laws of readings

What a pattern reads off tokens in order is laid out between the tokens
that it starts and ends at (`Reads.laid`). A span that is apart from all
tokens is nowhere cut by the trees: none of them starts or ends within it,
and no leaf covers it (`Reads.clear`). Trees of a kind that no pattern puts
over others are leaves (`Reads.isLeaf`).
-/

namespace Remedy

namespace Java

variable {Rule : Type} {grammar : Rule → Pattern Rule} {p : Pattern Rule}
variable {input rest : List Token} {parts : Parts} {tree : Tree}

/-! ### The tokens that are left -/

/-- Adjacent tokens make up a leaf, and what each token keeps of the offset
behind it they all keep. -/
theorem adjacentTokens_induct {M : Nat → List Token → Prop} {texts : List String}
    {start stop : Nat} {done : String}
    (hstep : ∀ t rest, M t.span.start (t :: rest) → M t.span.stop rest)
    (h : adjacentTokens texts start stop done input = some (tree, rest)) (hM : M stop input) :
    ∃ text stop', tree = .node (.sign text) ⟨start, stop'⟩ [] ∧ M stop' rest := by
  induction texts generalizing stop done input with
  | nil =>
    cases h
    exact ⟨done, stop, rfl, hM⟩
  | cons text texts ih =>
    cases input with
    | nil => cases h
    | cons t ts =>
      simp only [adjacentTokens] at h
      split at h
      · next htoken =>
        rw [Bool.and_eq_true, beq_iff_eq] at htoken
        exact ih h (hstep t ts (htoken.2 ▸ hM))
      · cases h

/-- One `>` is the first byte of a sign, of which the rest may be left. -/
theorem takeAngle_eq_some (h : takeAngle input = some (tree, rest)) :
    ∃ t ts more, input = t :: ts ∧ t.text.toList = '>' :: more ∧
      tree = .node (.sign ">") ⟨t.span.start, t.span.start + 1⟩ [] ∧
      (more = [] ∧ rest = ts ∨ more ≠ [] ∧
        rest = ⟨.sign, String.ofList more, ⟨t.span.start + 1, t.span.stop⟩⟩ :: ts) := by
  cases input with
  | nil => cases h
  | cons t ts =>
    simp only [takeAngle] at h
    split at h
    · next more hkind htext =>
      split at h <;> cases h
      · next hempty => exact ⟨t, rest, more, rfl, htext, rfl, .inl ⟨List.isEmpty_iff.1 hempty, rfl⟩⟩
      · next hmore =>
        exact ⟨t, ts, more, rfl, htext, rfl, .inr ⟨mt List.isEmpty_iff.2 hmore, rfl⟩⟩
    · cases h

/-- **What survives the loss of a token and of a `>` survives reading.** -/
theorem Reads.keeps {I : List Token → Prop} (hdrop : ∀ t ts, I (t :: ts) → I ts)
    (hangle : ∀ input tree rest, takeAngle input = some (tree, rest) → I input → I rest)
    (h : Reads grammar p input parts rest) (hinput : I input) : I rest := by
  induction h with
  | token => exact hdrop _ _ hinput
  | adjacent hread =>
    obtain ⟨_, _, -, hrest⟩ := adjacentTokens_induct (M := fun _ => I) hdrop hread hinput
    exact hrest
  | closeAngle hread => exact hangle _ _ _ hread hinput
  | leaf => exact hdrop _ _ hinput
  | seqNil | manyStop | ahead | notAhead => exact hinput
  | seqCons _ _ ih ihmore | manyMore _ _ ih ihmore => exact ihmore (ih hinput)
  | continuation _ _ _ ih ihmore => exact ihmore (ih hinput)
  | choice _ _ ih | only _ _ ih => exact ih hinput
  | node _ ih | as _ ih | operand _ ih | rule _ ih => exact ih hinput

/-- Nothing is left of nothing. -/
theorem Reads.ne_nil (h : Reads grammar p input parts rest) (hrest : rest ≠ []) : input ≠ [] := by
  intro hinput
  refine hrest (h.keeps (I := (· = [])) (fun t ts => nofun) ?_ hinput)
  rintro _ tree rest hread rfl
  cases hread

/-- The rest of a sign behind a `>` covers its text. -/
theorem Token.Sized.angle {t : Token} {more : List Char} (h : t.Sized)
    (htext : t.text.toList = '>' :: more) :
    t.span.stop = t.span.start + 1 + (String.ofList more).utf8ByteSize := by
  have hsize : t.text.utf8ByteSize = 1 + Text.byteSize more := by
    rw [← String.ofList_toList (s := t.text), ← Text.byteSize_eq, htext]
    rfl
  rw [h, hsize, Text.byteSize_eq, Nat.add_assoc]

/-- A `>` taken off tokens in order leaves tokens in order, and none that
is left starts before its end. -/
theorem Ordered.takeAngle (hinput : Ordered input) (h : takeAngle input = some (tree, rest)) :
    Ordered rest ∧ ∀ u ∈ rest, positionOf input + 1 ≤ u.span.start := by
  obtain ⟨t, ts, more, rfl, htext, -, hrest⟩ := takeAngle_eq_some h
  have hsize := hinput.head_sized.angle htext
  have hlater : ∀ u ∈ ts, t.span.start + 1 ≤ u.span.start := fun u hu => by
    have := hinput.head_stop_le hu
    omega
  rcases hrest with ⟨-, rfl⟩ | ⟨-, rfl⟩
  · exact ⟨hinput.tail, hlater⟩
  · exact ⟨.cons hsize (fun u hu => hinput.head_stop_le hu) hinput.tail,
      List.forall_mem_cons.2 ⟨Nat.le_refl _, hlater⟩⟩

/-- **Reading leaves tokens in order.** -/
theorem Reads.ordered (h : Reads grammar p input parts rest) (hinput : Ordered input) :
    Ordered rest :=
  h.keeps (fun _ _ => Ordered.tail) (fun _ _ _ hread hin => (hin.takeAngle hread).1) hinput

/-- What is left ends where the tokens did, or ahead of it. -/
theorem Reads.within {stop : Nat} (h : Reads grammar p input parts rest)
    (hinput : ∀ t ∈ input, t.span.stop ≤ stop) : ∀ t ∈ rest, t.span.stop ≤ stop := by
  refine h.keeps (I := fun ts => ∀ t ∈ ts, t.span.stop ≤ stop)
    (fun t ts hts => (List.forall_mem_cons.1 hts).2) ?_ hinput
  intro input tree rest hread hin
  obtain ⟨t, ts, more, rfl, -, -, ⟨-, rfl⟩ | ⟨-, rfl⟩⟩ := takeAngle_eq_some hread
  · exact (List.forall_mem_cons.1 hin).2
  · exact List.forall_mem_cons.2 (List.forall_mem_cons.1 hin)

/-! ### Trees over trees -/

section TreeOver

variable {kind : Kind} {position : Nat}

/-- A tree over others covers all from the first to the last. -/
theorem treeOver_cons (kind : Kind) (part : Option Role × Tree) (parts : Parts) (position : Nat) :
    treeOver kind (part :: parts) position = .node kind
      ⟨part.2.span.start, ((part :: parts).getLast (List.cons_ne_nil _ _)).2.span.stop⟩
      (part :: parts) := by
  have hlast := List.getLast?_eq_some_getLast (List.cons_ne_nil part parts)
  simp only [treeOver, hlast]

@[simp] theorem kind_treeOver : (treeOver kind parts position).kind = kind := by
  cases parts with
  | nil => rfl
  | cons part parts => rw [treeOver_cons]; rfl

@[simp] theorem parts_treeOver : (treeOver kind parts position).parts = parts := by
  cases parts with
  | nil => rfl
  | cons part parts => rw [treeOver_cons]; rfl

theorem mem_preorder_treeOver {s : Tree} : s ∈ (treeOver kind parts position).preorder ↔
    s = treeOver kind parts position ∨ s ∈ Tree.preorderParts parts := by
  rw [Tree.mem_preorder, parts_treeOver, Tree.mem_preorderParts]

/-- Roles are no matter for which trees there are. -/
theorem mem_preorderParts_label {s : Tree} {role : Role} :
    s ∈ Tree.preorderParts (label role parts) ↔ s ∈ Tree.preorderParts parts := by
  simp only [Tree.mem_preorderParts, label, List.mem_map, exists_exists_and_eq_and]

end TreeOver

/-! ### Layout -/

namespace Tree.Laid

variable {start middle stop position : Nat} {kind : Kind} {role : Option Role} {more : Parts}

theorem leaf {span : Span} (hstart : start ≤ span.start) (hspan : span.start ≤ span.stop)
    (hstop : span.stop ≤ stop) : Laid start stop [(role, .node kind span [])] :=
  cons_iff.2 ⟨hstart, hspan, laidOut_iff.2 (.nil hspan), .nil hstop⟩

theorem label (h : Laid start stop parts) (role : Role) : Laid start stop (label role parts) where
  between := by
    rw [Java.label, spansOf, List.map_map]
    exact h.between
  inOrder s hs := h.inOrder s (mem_preorderParts_label.1 hs)

/-- More trees behind one, which may play another role there. -/
theorem cons (h : Laid start middle [(role, tree)]) (hmore : Laid middle stop more)
    (other : Option Role) : Laid start stop ((other, tree) :: more) := by
  obtain ⟨hstart, hspan, htree, hend⟩ := cons_iff.1 h
  exact cons_iff.2 ⟨hstart, hspan, htree, hmore.widen hend.between (Nat.le_refl _)⟩

/-- A tree over trees that are laid out is laid out where they are. -/
theorem treeOver (h : Laid start stop parts) (hposition : parts = [] → position = start) :
    Laid start stop [(role, treeOver kind parts position)] := by
  rw [cons_iff, laidOut_iff, parts_treeOver]
  cases parts with
  | nil =>
    obtain rfl := hposition rfl
    exact ⟨Nat.le_refl _, Nat.le_refl _, .nil (Nat.le_refl _), .nil h.between⟩
  | cons part parts =>
    have htight := between_tighten h.between
    have hlast := h.between.of_mem (List.mem_map_of_mem
      (List.getLast_mem (List.cons_ne_nil part parts)))
    rw [treeOver_cons]
    exact ⟨h.between.1, htight.le, ⟨htight, h.inOrder⟩, .nil hlast.2.2⟩

end Tree.Laid

/-- An offset ahead of all tokens that are left is ahead of the next one. -/
theorem le_positionOf {offset : Nat} (hrest : rest ≠ [])
    (h : ∀ t ∈ rest, offset ≤ t.span.start) : offset ≤ positionOf rest := by
  obtain ⟨t, ts, rfl⟩ := List.exists_cons_of_ne_nil hrest
  exact h t List.mem_cons_self

theorem laid_leaf {t : Token} {kind : Kind} {role : Option Role} (h : Ordered (t :: rest))
    (hrest : rest ≠ []) :
    Tree.Laid (positionOf (t :: rest)) (positionOf rest) [(role, .node kind t.span [])] :=
  .leaf (Nat.le_refl _) h.head_sized.start_le (le_positionOf hrest fun _ hu => h.head_stop_le hu)

/-- **What is read is laid out** from the token that the reading starts at
to the one that it ends at. -/
theorem Reads.laid (h : Reads grammar p input parts rest) (hinput : Ordered input)
    (hrest : rest ≠ []) : Tree.Laid (positionOf input) (positionOf rest) parts := by
  induction h with
  | token => exact laid_leaf hinput hrest
  | leaf => exact laid_leaf hinput hrest
  | @adjacent texts input rest tree hread =>
    obtain ⟨text, stop, rfl, -, hstart, hstop⟩ := adjacentTokens_induct
      (M := fun offset ts =>
        Ordered ts ∧ positionOf input ≤ offset ∧ ∀ t ∈ ts, offset ≤ t.span.start)
      (fun t ts ⟨hts, hstart, _⟩ => ⟨hts.tail, hstart.trans hts.head_sized.start_le,
        fun _ hu => hts.head_stop_le hu⟩)
      hread ⟨hinput, Nat.le_refl _, fun _ => hinput.positionOf_le⟩
    exact .leaf (Nat.le_refl _) hstart (le_positionOf hrest hstop)
  | closeAngle hread =>
    have hafter := le_positionOf hrest (hinput.takeAngle hread).2
    obtain ⟨t, ts, more, rfl, -, rfl, -⟩ := takeAngle_eq_some hread
    exact .leaf (Nat.le_refl _) (Nat.le_succ _) hafter
  | seqNil | manyStop | ahead | notAhead => exact .nil (Nat.le_refl _)
  | seqCons hfirst hmore ih ihmore | manyMore hfirst hmore ih ihmore =>
    exact (ih hinput (hmore.ne_nil hrest)).append (ihmore (hfirst.ordered hinput) hrest)
  | choice _ _ ih | only _ _ ih => exact ih hinput hrest
  | operand _ ih | rule _ ih => exact ih hinput hrest
  | node _ ih => exact (ih hinput hrest).treeOver fun _ => rfl
  | as _ ih => exact (ih hinput hrest).label _
  | continuation _ htree hmore ih ihmore =>
    exact ((ih hinput (hmore.ne_nil hrest)).cons
      (ihmore (htree.ordered hinput) hrest) _).treeOver nofun

/-! ### Spans apart from the tokens -/

/-- **A span that a tree is clear of**: the tree neither starts nor ends
within it, and if it is a leaf, the two are apart. -/
structure Tree.Clear (hole : Span) (t : Tree) : Prop where
  start : t.span.start ≤ hole.start ∨ hole.stop ≤ t.span.start
  stop : t.span.stop ≤ hole.start ∨ hole.stop ≤ t.span.stop
  leaf : t.parts = [] → t.span.Apart hole

namespace Tree.Clear

variable {hole : Span} {kind : Kind} {position : Nat}

/-- A leaf apart from the span. -/
theorem of_leaf {span : Span} (hspan : span.start ≤ span.stop) (h : span.Apart hole) :
    (Tree.node kind span []).Clear hole where
  start := h.imp_left hspan.trans
  stop := h.imp_right fun hle => hle.trans hspan
  leaf _ := h

/-- A tree over others is clear of what all of them are clear of. -/
theorem treeOver (hposition : position ≤ hole.start ∨ hole.stop ≤ position)
    (hparts : ∀ s ∈ preorderParts parts, s.Clear hole) :
    ∀ s ∈ (treeOver kind parts position).preorder, s.Clear hole := by
  intro s hs
  rcases mem_preorder_treeOver.1 hs with rfl | hs
  · cases parts with
    | nil => exact of_leaf (Nat.le_refl _) hposition
    | cons part parts =>
      have hpart : ∀ q ∈ part :: parts, q.2.Clear hole := fun q hq =>
        hparts q.2 (mem_preorderParts.2 ⟨q, hq, q.2.mem_preorder_self⟩)
      rw [treeOver_cons]
      exact ⟨(hpart part List.mem_cons_self).start,
        (hpart _ (List.getLast_mem (List.cons_ne_nil _ _))).stop, nofun⟩
  · exact hparts s hs

end Tree.Clear

/-- **Tokens in order apart from a span.** -/
structure Avoids (hole : Span) (ts : List Token) : Prop where
  ordered : Ordered ts
  apart : ∀ t ∈ ts, t.span.Apart hole

namespace Avoids

variable {hole : Span} {t : Token} {ts : List Token}

theorem tail (h : Avoids hole (t :: ts)) : Avoids hole ts :=
  ⟨h.ordered.tail, (List.forall_mem_cons.1 h.apart).2⟩

theorem head (h : Avoids hole (t :: ts)) : t.span.Apart hole := h.apart t List.mem_cons_self

theorem takeAngle (h : Avoids hole input) (hread : takeAngle input = some (tree, rest)) :
    Avoids hole rest := by
  refine ⟨(h.ordered.takeAngle hread).1, ?_⟩
  obtain ⟨t, ts, more, rfl, htext, -, ⟨-, rfl⟩ | ⟨-, rfl⟩⟩ := takeAngle_eq_some hread
  · exact h.tail.apart
  · have hsize := h.ordered.head_sized.angle htext
    refine List.forall_mem_cons.2 ⟨h.head.imp id fun hle => ?_, h.tail.apart⟩
    exact hle.trans (Nat.le_succ _)

/-- Where the next token starts, the span is not cut. -/
theorem positionOf (h : Avoids hole ts) :
    positionOf ts ≤ hole.start ∨ hole.stop ≤ positionOf ts := by
  cases ts with
  | nil => exact .inl (Nat.zero_le _)
  | cons t ts => exact h.head.imp_left h.ordered.head_sized.start_le.trans

end Avoids

theorem Reads.avoids {hole : Span} (h : Reads grammar p input parts rest)
    (hinput : Avoids hole input) : Avoids hole rest :=
  h.keeps (fun _ _ => Avoids.tail) (fun _ _ _ hread hin => hin.takeAngle hread) hinput

/-- **Trees read off tokens apart from a span are clear of it.** -/
theorem Reads.clear {hole : Span} (hhole : hole.start < hole.stop)
    (h : Reads grammar p input parts rest) (hinput : Avoids hole input) :
    ∀ s ∈ Tree.preorderParts parts, s.Clear hole := by
  have hleaf : ∀ {kind span role}, span.start ≤ span.stop → span.Apart hole →
      ∀ s ∈ Tree.preorderParts [(role, .node kind span [])], s.Clear hole := by
    intro kind span role hspan hapart s hs
    rw [Tree.eq_of_mem_leaf rfl (Tree.mem_preorderParts_singleton.1 hs)]
    exact .of_leaf hspan hapart
  induction h with
  | token => exact hleaf hinput.ordered.head_sized.start_le hinput.head
  | leaf => exact hleaf hinput.ordered.head_sized.start_le hinput.head
  | @adjacent texts input rest tree hread =>
    -- a token behind others that are apart from the span is on the same side of it
    obtain ⟨text, stop, rfl, -, hstart, hapart⟩ := adjacentTokens_induct
      (M := fun offset ts => Avoids hole ts ∧ positionOf input ≤ offset ∧
        Span.Apart ⟨positionOf input, offset⟩ hole)
      (fun t ts ⟨hts, hstart, hbehind⟩ => by
        have hle := hts.ordered.head_sized.start_le
        have hnext := hts.head
        refine ⟨hts.tail, hstart.trans hle, ?_⟩
        simp only [Span.Apart] at hbehind hnext ⊢
        omega)
      hread ⟨hinput, Nat.le_refl _, hinput.positionOf⟩
    exact hleaf hstart hapart
  | closeAngle hread =>
    obtain ⟨t, ts, more, rfl, htext, rfl, -⟩ := takeAngle_eq_some hread
    have hsize := hinput.ordered.head_sized.angle htext
    have hbyte : t.span.start + 1 ≤ t.span.stop := by omega
    exact hleaf (Nat.le_succ _) (hinput.head.imp_left hbyte.trans)
  | seqNil | manyStop | ahead | notAhead =>
    intro s hs
    cases hs
  | seqCons hfirst _ ih ihmore | manyMore hfirst _ ih ihmore =>
    intro s hs
    exact (Tree.mem_preorderParts_append.1 hs).elim (ih hinput s) (ihmore (hfirst.avoids hinput) s)
  | choice _ _ ih | only _ _ ih => exact ih hinput
  | operand _ ih | rule _ ih => exact ih hinput
  | node _ ih =>
    intro s hs
    exact .treeOver hinput.positionOf (ih hinput) s (Tree.mem_preorderParts_singleton.1 hs)
  | as _ ih => exact fun s hs => ih hinput s (mem_preorderParts_label.1 hs)
  | continuation _ htree _ ih ihmore =>
    intro s hs
    refine .treeOver (.inl (Nat.zero_le _)) (fun s hs => ?_) s
      (Tree.mem_preorderParts_singleton.1 hs)
    rcases Tree.mem_preorderParts_cons.1 hs with hs | hs
    · exact ih hinput s (Tree.mem_preorderParts_singleton.2 hs)
    · exact ihmore (htree.avoids hinput) s hs

/-! ### Kinds of leaves -/

namespace Pattern

mutual

/-- The kinds that a pattern puts over the trees it reads. -/
def covers : Pattern Rule → List Kind
  | .token _ | .adjacent _ | .closeAngle | .leaf _ _ | .rule _ => []
  | .seq ps | .choice ps => coversAll ps
  | .many p | .ahead p | .notAhead p | .only _ p | .as _ p => p.covers
  | .node kind p => kind :: p.covers
  | .nested first steps => first.covers ++ coversSteps steps

/-- The kinds that some patterns put over the trees they read. -/
def coversAll : List (Pattern Rule) → List Kind
  | [] => []
  | p :: ps => p.covers ++ coversAll ps

/-- The kinds that continuations put over the trees they read. -/
def coversSteps : List (Kind × List Kind × Option Role × Pattern Rule) → List Kind
  | [] => []
  | (kind, _, _, p) :: steps => kind :: p.covers ++ coversSteps steps

end

variable {kind : Kind} {ps : List (Pattern Rule)}
variable {steps : List (Kind × List Kind × Option Role × Pattern Rule)}

theorem covers_subset_coversAll (h : p ∈ ps) : p.covers ⊆ coversAll ps := by
  induction ps with
  | nil => cases h
  | cons q ps ih =>
    rw [coversAll]
    rcases List.mem_cons.1 h with rfl | h
    · exact List.subset_append_left _ _
    · exact fun kind hkind => List.mem_append_right _ (ih h hkind)

theorem covers_subset_coversSteps {kinds : List Kind} {part : Option Role}
    (h : (kind, kinds, part, p) ∈ steps) : kind :: p.covers ⊆ coversSteps steps := by
  induction steps with
  | nil => cases h
  | cons step steps ih =>
    obtain ⟨kind', kinds', part', q⟩ := step
    rw [coversSteps]
    rcases List.mem_cons.1 h with heq | h
    · cases heq
      exact List.subset_append_left _ _
    · exact fun kind hkind => List.mem_append_right _ (ih h hkind)

end Pattern

/-- **A kind that no pattern puts over trees is one of leaves.** -/
theorem Reads.isLeaf {kind : Kind} (hgrammar : ∀ r, kind ∉ (grammar r).covers)
    (h : Reads grammar p input parts rest) (hp : kind ∉ p.covers) :
    ∀ s ∈ Tree.preorderParts parts, s.kind = kind → s.parts = [] := by
  have hleaf : ∀ {other span role}, ∀ s ∈ Tree.preorderParts [(role, .node other span [])],
      s.kind = kind → s.parts = [] := by
    intro other span role s hs _
    rw [Tree.eq_of_mem_leaf rfl (Tree.mem_preorderParts_singleton.1 hs), Tree.parts]
  have hover : ∀ {other parts position role}, other ≠ kind →
      (∀ s ∈ Tree.preorderParts parts, s.kind = kind → s.parts = []) →
      ∀ s ∈ Tree.preorderParts [(role, treeOver other parts position)],
        s.kind = kind → s.parts = [] := by
    intro other parts position role hne hparts s hs hkind
    rcases mem_preorder_treeOver.1 (Tree.mem_preorderParts_singleton.1 hs) with rfl | hs
    · exact absurd (kind_treeOver.symm.trans hkind) hne
    · exact hparts s hs hkind
  induction h with
  | token | leaf => exact hleaf
  | adjacent hread =>
    obtain ⟨_, _, rfl, -⟩ := adjacentTokens_induct (M := fun _ _ => True)
      (fun _ _ _ => trivial) hread trivial
    exact hleaf
  | closeAngle hread =>
    obtain ⟨_, _, _, -, -, rfl, -⟩ := takeAngle_eq_some hread
    exact hleaf
  | seqNil | manyStop | ahead | notAhead =>
    intro s hs
    cases hs
  | seqCons _ _ ih ihmore =>
    rw [Pattern.covers, Pattern.coversAll, List.mem_append, not_or] at hp
    intro s hs
    exact (Tree.mem_preorderParts_append.1 hs).elim (ih hp.1 s) (ihmore hp.2 s)
  | manyMore _ _ ih ihmore =>
    intro s hs
    exact (Tree.mem_preorderParts_append.1 hs).elim (ih hp s) (ihmore hp s)
  | choice hmem _ ih => exact ih fun hcovers => hp (Pattern.covers_subset_coversAll hmem hcovers)
  | only _ _ ih => exact ih hp
  | node _ ih =>
    rw [Pattern.covers, List.mem_cons, not_or] at hp
    exact hover (Ne.symm hp.1) (ih hp.2)
  | as _ ih => exact fun s hs => ih hp s (mem_preorderParts_label.1 hs)
  | operand _ ih =>
    rw [Pattern.covers, List.mem_append, not_or] at hp
    exact ih hp.1
  | continuation hstep _ _ ih ihmore =>
    have hsteps := Pattern.covers_subset_coversSteps hstep
    rw [Pattern.covers, List.mem_append, not_or] at hp
    refine hover (fun heq => hp.2 (hsteps (heq ▸ List.mem_cons_self))) fun s hs => ?_
    rcases Tree.mem_preorderParts_cons.1 hs with hs | hs
    · exact ih (List.mem_append.not.2 (not_or.2 hp)) s (Tree.mem_preorderParts_singleton.2 hs)
    · exact ihmore (fun hcovers => hp.2 (hsteps (List.mem_cons_of_mem _ hcovers))) s hs
  | rule _ ih => exact ih (hgrammar _)

end Java

end Remedy
