import Mathlib
import Remedy.Proofs.Java.Covering
/-!
# Compounds

The grammar puts some kinds over two trees at least, wherever it makes a
tree of that kind (`Pattern.joins`): what is read of such a kind is longer
than each of its children. A name with points is of such a kind and a single
name is a leaf, so that the two never stand at the same span of a text
(`span_ne_of_parse`).
-/

namespace Remedy

namespace Java

/-! ### Patterns -/

namespace Pattern

variable {Rule : Type}

/-- Whether a pattern is a sequence that reads two trees at least. -/
def takesTwo : Pattern Rule → Bool
  | .seq (p :: ps) => p.takes && takesSome ps
  | _ => false

mutual

/-- **Whether a pattern joins two trees** at least in each tree that it makes
of one of some kinds. -/
def joins (kinds : List Kind) : Pattern Rule → Bool
  | .token _ | .adjacent _ | .closeAngle | .rule _ => true
  | .leaf kind _ => kind ∉ kinds
  | .seq ps | .choice ps => joinsAll kinds ps
  | .many p | .ahead p | .notAhead p | .only _ p | .as _ p => p.joins kinds
  | .node kind p => (kind ∉ kinds || p.takesTwo) && p.joins kinds
  | .nested first steps => first.joins kinds && joinsSteps kinds steps

/-- Whether each of some patterns does. -/
def joinsAll (kinds : List Kind) : List (Pattern Rule) → Bool
  | [] => true
  | p :: ps => p.joins kinds && joinsAll kinds ps

/-- Whether each of some continuations does, of which the tree so far is a
child. -/
def joinsSteps (kinds : List Kind) :
    List (Kind × List Kind × Option Role × Pattern Rule) → Bool
  | [] => true
  | (kind, _, _, p) :: steps =>
    (kind ∉ kinds || p.takes) && p.joins kinds && joinsSteps kinds steps

end

variable {p : Pattern Rule} {ps : List (Pattern Rule)} {kind : Kind} {kinds among : List Kind}
variable {part : Option Role} {steps : List (Kind × List Kind × Option Role × Pattern Rule)}

theorem joins_of_joinsAll (h : joinsAll kinds ps) (hp : p ∈ ps) : p.joins kinds := by
  induction ps with
  | nil => cases hp
  | cons q ps ih =>
    rw [joinsAll, Bool.and_eq_true] at h
    rcases List.mem_cons.1 hp with rfl | hp
    · exact h.1
    · exact ih h.2 hp

theorem joins_of_joinsSteps (h : joinsSteps kinds steps) (hp : (kind, among, part, p) ∈ steps) :
    (kind ∉ kinds ∨ p.takes) ∧ p.joins kinds := by
  induction steps with
  | nil => cases hp
  | cons step steps ih =>
    obtain ⟨kind', among', part', q⟩ := step
    simp only [joinsSteps, Bool.and_eq_true, Bool.or_eq_true, decide_eq_true_eq] at h
    rcases List.mem_cons.1 hp with heq | hp
    · cases heq
      exact h.1
    · exact ih h.2 hp

end Pattern

section Reading

variable {Rule : Type} {grammar : Rule → Pattern Rule} {p : Pattern Rule}
variable {input rest : List Token} {parts : Parts} {kinds : List Kind}

/-- A sequence that reads two trees at least reads as many. -/
theorem Reads.two_le_length (htakes : ∀ r, (grammar r).takes)
    (h : Reads grammar p input parts rest) (hp : p.takesTwo) : 2 ≤ parts.length := by
  cases h with
  | seqCons hfirst hmore =>
    rw [Pattern.takesTwo, Bool.and_eq_true] at hp
    have hone := List.length_pos_of_ne_nil (hfirst.parts_ne_nil htakes hp.1)
    have hmore := List.length_pos_of_ne_nil (hmore.parts_ne_nil htakes hp.2)
    rw [List.length_append]
    omega
  | _ => cases hp

/-- **Every tree of some kinds has two children**, if all patterns join two
trees in it. -/
theorem Reads.joins (htakes : ∀ r, (grammar r).takes) (hjoins : ∀ r, (grammar r).joins kinds)
    (hsigns : ∀ text, Kind.sign text ∉ kinds) (h : Reads grammar p input parts rest)
    (hp : p.joins kinds) :
    ∀ s ∈ Tree.preorderParts parts, s.kind ∈ kinds → 2 ≤ s.parts.length := by
  have hleaf : ∀ {kind span role}, kind ∉ kinds →
      ∀ s ∈ Tree.preorderParts [(role, .node kind span [])], s.kind ∈ kinds →
        2 ≤ s.parts.length := by
    intro kind span role hkind s hs hmem
    rw [Tree.eq_of_mem_leaf rfl (Tree.mem_preorderParts_singleton.1 hs)] at hmem
    exact absurd hmem hkind
  have hover : ∀ {kind parts position role}, (kind ∉ kinds ∨ 2 ≤ parts.length) →
      (∀ s ∈ Tree.preorderParts parts, s.kind ∈ kinds → 2 ≤ s.parts.length) →
      ∀ s ∈ Tree.preorderParts [(role, treeOver kind parts position)],
        s.kind ∈ kinds → 2 ≤ s.parts.length := by
    intro kind parts position role hown hparts s hs hmem
    rcases mem_preorder_treeOver.1 (Tree.mem_preorderParts_singleton.1 hs) with rfl | hs
    · rw [kind_treeOver] at hmem
      rw [parts_treeOver]
      exact hown.resolve_left (not_not_intro hmem)
    · exact hparts s hs hmem
  induction h with
  | token => exact hleaf (hsigns _)
  | leaf =>
    rw [Pattern.joins, decide_eq_true_eq] at hp
    exact hleaf hp
  | adjacent hread =>
    obtain ⟨_, _, rfl, -⟩ := adjacentTokens_induct (M := fun _ _ => True)
      (fun _ _ _ => trivial) hread trivial
    exact hleaf (hsigns _)
  | closeAngle hread =>
    obtain ⟨_, _, _, -, -, rfl, -⟩ := takeAngle_eq_some hread
    exact hleaf (hsigns _)
  | seqNil | manyStop | ahead | notAhead =>
    intro s hs
    cases hs
  | seqCons _ _ ih ihmore =>
    rw [Pattern.joins, Pattern.joinsAll, Bool.and_eq_true] at hp
    intro s hs
    exact (Tree.mem_preorderParts_append.1 hs).elim (ih hp.1 s) (ihmore hp.2 s)
  | manyMore _ _ ih ihmore =>
    intro s hs
    exact (Tree.mem_preorderParts_append.1 hs).elim (ih hp s) (ihmore hp s)
  | choice hmem _ ih => exact ih (Pattern.joins_of_joinsAll hp hmem)
  | only _ _ ih => exact ih hp
  | node hread ih =>
    rw [Pattern.joins, Bool.and_eq_true, Bool.or_eq_true, decide_eq_true_eq] at hp
    exact hover (hp.1.imp_right (hread.two_le_length htakes)) (ih hp.2)
  | as _ ih => exact fun s hs => ih hp s (mem_preorderParts_label.1 hs)
  | operand _ ih =>
    rw [Pattern.joins, Bool.and_eq_true] at hp
    exact ih hp.1
  | rule _ ih => exact ih (hjoins _)
  | continuation hstep _ hmore ih ihmore =>
    have hfirst := ih hp
    rw [Pattern.joins, Bool.and_eq_true] at hp
    obtain ⟨hown, hbehind⟩ := Pattern.joins_of_joinsSteps hp.2 hstep
    refine hover (hown.imp_right fun htaken => ?_) fun s hs => ?_
    · have hmany := List.length_pos_of_ne_nil (hmore.parts_ne_nil htakes htaken)
      rw [List.length_cons]
      omega
    · rcases Tree.mem_preorderParts_cons.1 hs with hs | hs
      · exact hfirst s (Tree.mem_preorderParts_singleton.2 hs)
      · exact ihmore hbehind s hs

end Reading

/-! ### Single names and names with points -/

/-- The kinds of single names. -/
def nameKinds : List Kind := [.identifier, .typeIdentifier]

/-- The kinds of names with points. -/
def pathKinds : List Kind := [.fieldAccess, .scopedTypeIdentifier]

/-- No rule puts a single name over other trees, -/
theorem not_mem_covers_of_mem_nameKinds {kind : Kind} (h : kind ∈ nameKinds) (r : Rule) :
    kind ∉ (grammar r).covers := by
  revert kind
  cases r <;> decide +kernel

/-- and none makes a name with points of less than two trees. -/
theorem joins_grammar (r : Rule) : (grammar r).joins pathKinds := by
  cases r <;> decide +kernel

namespace Tree.Spread

variable {root s t : Tree}

/-- **A leaf is not as wide as a tree with two children.** -/
theorem span_ne_of_leaf (h : root.Spread) (hs : s ∈ preorderParts root.parts)
    (ht : t ∈ preorderParts root.parts) (hleaf : s.parts = []) (htwo : 2 ≤ t.parts.length) :
    s.span ≠ t.span := by
  intro hspan
  have hroot : ∀ {u}, u ∈ preorderParts root.parts → u ∈ root.preorder := fun hu =>
    mem_preorder.2 (.inr (mem_preorderParts.1 hu))
  have hne : s ≠ t := by
    rintro rfl
    rw [hleaf] at htwo
    cases htwo
  have hself : t.span.contains t.span := Span.contains_iff.2 ⟨Nat.le_refl _, Nat.le_refl _⟩
  rcases h.laidOut.mem_or_mem_of_contains (hroot hs) (hroot ht) (h.covers t ht) (hspan ▸ hself)
    hself with hbelow | hbelow
  · -- the child that the leaf is in would be the only one
    obtain ⟨part, hpart, hin⟩ := (mem_preorder.1 hbelow).resolve_left hne
    have hown := h.of_mem (hroot ht)
    have hwide := (hown.child hpart).laidOut.contains hin
    rw [hown.parts_eq_singleton hpart (hspan ▸ hwide)] at htwo
    cases Nat.le_of_succ_le_succ htwo
  · exact hne (eq_of_mem_leaf hleaf hbelow).symm

end Tree.Spread

/-- **A single name and a name with points** stand at different spans of a
text. -/
theorem span_ne_of_parse {text : String} {tree s t : Tree} (h : parse text = .ok tree)
    (hs : s ∈ Tree.preorderParts tree.parts) (ht : t ∈ Tree.preorderParts tree.parts)
    (hname : s.kind ∈ nameKinds) (hpath : t.kind ∈ pathKinds) : s.span ≠ t.span := by
  obtain ⟨role, read, last, hreads, hread, rfl⟩ := exists_read_of_parse h
  have hcomments := (tokenized_tokens text).tighten.filter Token.isComment
  have hbelow : ∀ {u}, u ∈ Tree.preorderParts read.parts →
      u ∈ Tree.preorderParts [(role, read)] := fun hu =>
    Tree.mem_preorderParts_singleton.2 (Tree.mem_preorder.2 (.inr (Tree.mem_preorderParts.1 hu)))
  -- both were there before the comments were put in, for a comment is no name
  have hold : ∀ u ∈ Tree.preorderParts (((commentsOf text).map commentTree).foldl
      (fun t c => Tree.insertComment c t) read).parts, u.kind ∈ nameKinds ++ pathKinds →
      ∃ v ∈ Tree.preorderParts read.parts, v.Alike u := by
    intro u hu hkind
    refine (hread.exists_alike hcomments u hu).resolve_left ?_
    rintro ⟨c, -, halike⟩
    rw [halike.kind, commentTree, Tree.kind] at hkind
    split at hkind <;> revert hkind <;> decide
  obtain ⟨s', hs', hsalike⟩ := hold s hs (List.mem_append_left _ hname)
  obtain ⟨t', ht', htalike⟩ := hold t ht (List.mem_append_right _ hpath)
  rw [hsalike.kind] at hname
  rw [htalike.kind] at hpath
  have hleaf := hreads.isLeaf (not_mem_covers_of_mem_nameKinds hname)
    (by revert hname; generalize s'.kind = kind; revert kind; decide +kernel) s' (hbelow hs') rfl
  have htwo := hreads.joins takes_grammar joins_grammar (by simp [pathKinds]) (by decide +kernel) t'
    (hbelow ht') hpath
  rw [hsalike.span, htalike.span]
  exact (spread_of_reads hreads hread).span_ne_of_leaf hs' ht' hleaf htwo

end Java

end Remedy
