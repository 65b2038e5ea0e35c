import Remedy.Text.Slice
/-!
# Cuts of a text

A cut at a byte offset is a way to write the text as two parts. What
`Text.slice?` answers is read off from that (`slice?_eq_some_iff`): a slice
is the middle of three parts, and every span between two boundaries that
runs forwards has one.
-/

namespace Remedy

namespace Text

variable {text piece : String} {span : Span} {start stop : Nat}

/-- **A boundary is a place where the text falls into two parts.** -/
theorem isBoundary_iff {n : Nat} :
    isBoundary text n ↔ ∃ before after, text = before ++ after ∧ n = before.utf8ByteSize := by
  rw [isBoundary, String.Pos.Raw.isValid_eq_true_iff, String.Pos.Raw.isValid_iff_exists_append]
  constructor
  · rintro ⟨before, after, htext, hn⟩
    exact ⟨before, after, htext, congrArg String.Pos.Raw.byteIdx hn⟩
  · rintro ⟨before, after, htext, hn⟩
    exact ⟨before, after, htext, String.Pos.Raw.ext hn⟩

/-- The middle of three parts is the slice between the sizes of what
stands ahead. -/
theorem slice?_append (before middle after : String) :
    slice? (before ++ middle ++ after)
      ⟨before.utf8ByteSize, before.utf8ByteSize + middle.utf8ByteSize⟩ = some middle := by
  have hstart : (String.Pos.Raw.mk before.utf8ByteSize).IsValid (before ++ middle ++ after) :=
    String.Pos.Raw.isValid_iff_exists_append.2
      ⟨before, middle ++ after, by rw [String.append_assoc], rfl⟩
  have hstop : (String.Pos.Raw.mk (before.utf8ByteSize + middle.utf8ByteSize)).IsValid
      (before ++ middle ++ after) :=
    String.Pos.Raw.isValid_iff_exists_append.2
      ⟨before ++ middle, after, rfl, String.Pos.Raw.ext (by simp)⟩
  rw [slice?, dif_pos ⟨Nat.le_add_right _ _, hstart, hstop⟩]
  congr 1
  apply String.toByteArray_inj.1
  rw [String.toByteArray_extract, String.toByteArray_append, String.toByteArray_append,
    String.offset_pos, String.offset_pos, ByteArray.append_assoc, ← String.size_toByteArray,
    ← String.size_toByteArray]
  have hsize := ByteArray.extract_append_size_add (a := before.toByteArray)
    (b := middle.toByteArray ++ after.toByteArray) (i := 0) (j := middle.toByteArray.size)
  rw [Nat.add_zero] at hsize
  rw [hsize, ByteArray.extract_append_eq_left rfl]

/-- Two ways to divide a text, the first one further up: what lies between
the two places is a part of its own. -/
theorem exists_between {before after before' after' : String}
    (h : before ++ after = before' ++ after') (hle : before.utf8ByteSize ≤ before'.utf8ByteSize) :
    ∃ middle, before' = before ++ middle ∧ after = middle ++ after' := by
  have hlist : before.toList ++ after.toList = before'.toList ++ after'.toList := by
    rw [← String.toList_append, ← String.toList_append, h]
  rcases List.append_eq_append_iff.1 hlist with ⟨m, hbefore, hafter⟩ | ⟨m, hbefore, hafter⟩
  · refine ⟨String.ofList m, ?_, ?_⟩
    · apply String.toList_inj.1
      rw [hbefore, String.toList_append, String.toList_ofList]
    · apply String.toList_inj.1
      rw [hafter, String.toList_append, String.toList_ofList]
  · have hsplit : before = before' ++ String.ofList m := by
      apply String.toList_inj.1
      rw [hbefore, String.toList_append, String.toList_ofList]
    -- the first place is not below the second, so nothing lies between
    have hnil : String.ofList m = "" := by
      apply String.utf8ByteSize_eq_zero_iff.1
      rw [hsplit, String.utf8ByteSize_append] at hle
      omega
    refine ⟨"", ?_, ?_⟩
    · rw [hsplit, hnil, String.append_empty, String.append_empty]
    · rw [hsplit, hnil, String.append_empty] at h
      rw [String.empty_append]
      exact (String.append_right_inj before').1 h

/-- Two boundaries in order divide a text into three parts. -/
theorem exists_parts (hstart : isBoundary text start) (hstop : isBoundary text stop)
    (hle : start ≤ stop) :
    ∃ before middle after, text = before ++ middle ++ after ∧ start = before.utf8ByteSize ∧
      stop = before.utf8ByteSize + middle.utf8ByteSize := by
  obtain ⟨before, rest, htext, hs⟩ := isBoundary_iff.1 hstart
  obtain ⟨upto, after, htext', ht⟩ := isBoundary_iff.1 hstop
  obtain ⟨middle, hupto, hrest⟩ := exists_between (htext.symm.trans htext') (by omega)
  refine ⟨before, middle, after, by rw [htext', hupto], hs, ?_⟩
  rw [ht, hupto, String.utf8ByteSize_append]

/-- **A slice is the middle of three parts of the text.** -/
theorem slice?_eq_some_iff :
    slice? text span = some piece ↔ ∃ before after, text = before ++ piece ++ after ∧
      span = ⟨before.utf8ByteSize, before.utf8ByteSize + piece.utf8ByteSize⟩ := by
  constructor
  · intro h
    have hvalid : span.start ≤ span.stop ∧ isBoundary text span.start ∧
        isBoundary text span.stop := by
      rw [slice?] at h
      split at h
      case isFalse => cases h
      case isTrue hv =>
        simpa [isBoundary, String.Pos.Raw.isValid_eq_true_iff] using hv
    obtain ⟨before, middle, after, rfl, hstart, hstop⟩ :=
      exists_parts hvalid.2.1 hvalid.2.2 hvalid.1
    have hspan : span = ⟨before.utf8ByteSize, before.utf8ByteSize + middle.utf8ByteSize⟩ := by
      rw [← hstop, ← hstart]
    rw [hspan, slice?_append, Option.some.injEq] at h
    subst h
    exact ⟨before, after, rfl, hspan⟩
  · rintro ⟨before, after, rfl, rfl⟩
    exact slice?_append before piece after

/-- Between two boundaries in order there is a slice. -/
theorem isSome_slice? (hle : span.start ≤ span.stop) (hstart : isBoundary text span.start)
    (hstop : isBoundary text span.stop) : (slice? text span).isSome := by
  obtain ⟨before, middle, after, htext, hs, ht⟩ := exists_parts hstart hstop hle
  rw [Option.isSome_iff_exists]
  refine ⟨middle, slice?_eq_some_iff.2 ⟨before, after, htext, ?_⟩⟩
  rw [← ht, ← hs]

/-- The rest of a text behind its first part. -/
theorem sliceFrom?_append (before after : String) :
    sliceFrom? (before ++ after) before.utf8ByteSize = some after := by
  refine slice?_eq_some_iff.2 ⟨before, "", by rw [String.append_empty], ?_⟩
  rw [String.utf8ByteSize_append]

end Text

end Remedy
