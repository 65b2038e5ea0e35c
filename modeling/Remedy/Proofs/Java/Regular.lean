import Mathlib
import Remedy.Proofs.Java.Compounds
import Remedy.Source.Unit
/-!
# Regular trees

What is said here of the trees of Java files holds under any reader that
makes regular ones: trees that lie along their text, in which a span tells a
string literal, whatever is in it, and a single name from one with points.
The reader of the grammar makes such trees (`Java.regular_of_parse`).
-/

namespace Remedy

namespace Java

/-- **A regular tree of a text.** -/
structure Tree.Regular (root : Tree) (text : String) : Prop where
  spread : root.Spread
  ends : root.span.stop ≤ text.utf8ByteSize
  literals : ∀ s ∈ root.preorder, ∀ t ∈ root.preorder, s.kind = .stringLiteral →
    t.kind = .stringLiteral → s.span = t.span → s = t
  names : ∀ s ∈ preorderParts root.parts, ∀ t ∈ preorderParts root.parts,
    s.kind ∈ nameKinds → t.kind ∈ pathKinds → s.span ≠ t.span

/-- **What the grammar reads is regular.** Its string literals are leaves. -/
theorem regular_of_parse {text : String} {root : Tree} (h : parse text = .ok root) :
    root.Regular text where
  spread := spread_of_parse h
  ends := by
    obtain ⟨start, parts, rfl, -⟩ := exists_of_parse h
    exact Nat.le_refl _
  literals s hs t ht hskind htkind hspan := by
    have hbytes : s.span.start < s.span.stop := by
      obtain ⟨start, parts, rfl, -⟩ := exists_of_parse h
      rcases Tree.mem_preorder.1 hs with rfl | hbelow
      · cases hskind
      · exact start_lt_stop_of_parse h (Tree.mem_preorderParts.2 hbelow)
    -- leaves that share a byte are one
    exact (laidOut_of_parse h).eq_of_leaves hs ht (isLeaf_of_parse h hs hskind)
      (isLeaf_of_parse h ht htkind) hspan hbytes
  names _ hs _ ht := span_ne_of_parse h hs ht

end Java

/-- **Readers that make regular trees of Java.** -/
def Readers.Regular (readers : Readers) : Prop :=
  ∀ text root, readers.java text = .ok root → root.Regular text

theorem Readers.regular_standard : Readers.standard.Regular :=
  fun _ _ => Java.regular_of_parse

end Remedy
