import Mathlib.Data.List.Basic
import Remedy.Proofs.Text.Lines
import Remedy.Proofs.Text.Pieces
import Remedy.Proofs.Text.Positions
/-!
# What spans leave of a text

A text without some spans is what is left of its characters when those are taken
out that stand under one of the spans (`Text.without`). Edits that put nothing
in place of their spans lead to it (`Text.Piece.newText_eq_without`).
-/

namespace Remedy

namespace Text

variable {spans : List Span} {cs : List Char} {o cursor : Nat}

/-- The characters that stand under none of the spans, from a byte offset on. -/
def leftFrom (spans : List Span) (o : Nat) : List Char → List Char
  | [] => []
  | c :: cs =>
    if spans.any fun s => s.start ≤ o && o < s.stop then leftFrom spans (o + c.utf8Size) cs
    else c :: leftFrom spans (o + c.utf8Size) cs

/-- **A text without what stands under spans.** -/
def without (text : String) (spans : List Span) : String :=
  String.ofList (leftFrom spans 0 text.toList)

theorem leftFrom_append (spans : List Span) (o : Nat) (cs ds : List Char) :
    leftFrom spans o (cs ++ ds) =
      leftFrom spans o cs ++ leftFrom spans (o + byteSize cs) ds := by
  induction cs generalizing o with
  | nil => rfl
  | cons c cs ih =>
    rw [List.cons_append, leftFrom, leftFrom, ih, byteSize, Nat.add_assoc]
    split <;> rfl

/-- What a span covers is not left, -/
theorem leftFrom_of_covered {s : Span} (hs : s ∈ spans) (hstart : s.start ≤ o)
    (hstop : o + byteSize cs ≤ s.stop) : leftFrom spans o cs = [] := by
  induction cs generalizing o with
  | nil => rfl
  | cons c cs ih =>
    rw [byteSize] at hstop
    have hsize := c.utf8Size_pos
    have hcovered : spans.any fun s => s.start ≤ o && o < s.stop := by
      rw [List.any_eq_true]
      refine ⟨s, hs, ?_⟩
      rw [Bool.and_eq_true, decide_eq_true_eq, decide_eq_true_eq]
      exact ⟨hstart, by omega⟩
    rw [leftFrom, if_pos hcovered]
    exact ih (by omega) (by omega)

/-- and what no span reaches is. -/
theorem leftFrom_of_free (h : ∀ s ∈ spans, s.stop ≤ o ∨ o + byteSize cs ≤ s.start) :
    leftFrom spans o cs = cs := by
  induction cs generalizing o with
  | nil => rfl
  | cons c cs ih =>
    have hsize := c.utf8Size_pos
    have hfree : ¬ spans.any fun s => s.start ≤ o && o < s.stop := by
      rw [List.any_eq_true]
      rintro ⟨s, hs, hcovered⟩
      rw [Bool.and_eq_true, decide_eq_true_eq, decide_eq_true_eq] at hcovered
      have hapart := h s hs
      rw [byteSize] at hapart
      omega
    rw [leftFrom, if_neg hfree, ih]
    intro s hs
    have hapart := h s hs
    rw [byteSize] at hapart
    omega

namespace Piece

variable {ps : List Piece} {rest : String}

theorem le_start_of_mem_edits {e : Span × String} (he : e ∈ edits cursor ps) :
    cursor ≤ e.1.start := by
  induction ps generalizing cursor with
  | nil => cases he
  | cons p ps ih =>
    rcases List.mem_cons.1 he with rfl | he
    · exact Nat.le_add_right _ _
    · exact (Nat.le_trans (Nat.le_add_right _ _) (Nat.le_add_right _ _)).trans (ih he)

/-- Pieces that give way to nothing leave what none of their spans covers. Spans
that end ahead of the pieces make no difference. -/
theorem leftFrom_oldText (hnothing : ∀ p ∈ ps, p.new = "")
    (hspans : ∀ e ∈ edits cursor ps, e.1 ∈ spans)
    (hothers : ∀ s ∈ spans, s.stop ≤ cursor ∨ ∃ e ∈ edits cursor ps, e.1 = s) :
    leftFrom spans cursor (oldText rest ps).toList = (newText rest ps).toList := by
  induction ps generalizing cursor with
  | nil =>
    refine leftFrom_of_free fun s hs => .inl ?_
    exact (hothers s hs).resolve_right fun ⟨_, he, _⟩ => List.not_mem_nil he
  | cons p ps ih =>
    obtain ⟨hnew, hlater⟩ := List.forall_mem_cons.1 hnothing
    obtain ⟨hfirst, hmore⟩ := List.forall_mem_cons.1 hspans
    have hgap : leftFrom spans cursor p.gap.toList = p.gap.toList := by
      refine leftFrom_of_free fun s hs => (hothers s hs).imp_right ?_
      rintro ⟨e, he, rfl⟩
      rw [← utf8ByteSize_eq]
      rcases List.mem_cons.1 he with rfl | he
      · exact Nat.le_refl _
      · exact (Nat.le_add_right _ _).trans (le_start_of_mem_edits he)
    have hold : leftFrom spans (cursor + byteSize p.gap.toList) p.old.toList = [] := by
      refine leftFrom_of_covered hfirst ?_ ?_ <;> simp only [utf8ByteSize_eq, Nat.le_refl]
    have hrest : leftFrom spans (cursor + byteSize (p.gap.toList ++ p.old.toList))
        (oldText rest ps).toList = (newText rest ps).toList := by
      rw [byteSize_append, ← utf8ByteSize_eq, ← utf8ByteSize_eq, ← Nat.add_assoc]
      refine ih hlater hmore fun s hs => ?_
      rcases hothers s hs with hahead | ⟨e, he, rfl⟩
      · exact .inl (by omega)
      · rcases List.mem_cons.1 he with rfl | he
        · exact .inl (Nat.le_refl _)
        · exact .inr ⟨e, he, rfl⟩
    simp only [oldText, newText, String.toList_append, hnew]
    rw [leftFrom_append, leftFrom_append, hgap, hold, hrest, List.append_nil, String.toList_empty,
      List.append_nil]

/-- **Pieces that give way to nothing leave the text without their spans.** -/
theorem newText_eq_without (h : ∀ p ∈ ps, p.new = "") :
    newText rest ps = without (oldText rest ps) ((edits 0 ps).map Prod.fst) := by
  rw [without, leftFrom_oldText h (fun e he => List.mem_map_of_mem he)
    (fun s hs => .inr (List.mem_map.1 hs)), String.ofList_toList]

end Piece

end Text

end Remedy
