import Mathlib
import Remedy.Proofs.Text.Detection
/-!
# Reading bytes that are UTF-8

`Utf8.repair` reads any bytes and puts characters of its own where they are
no text. Where they are one it changes nothing (`Utf8.repair_encode`): the
bytes of each character are read as this character (`Utf8.exists_step`).
-/

namespace Remedy

namespace Utf8

variable {a m n o : Nat} {c : Char} {bytes : Bytes}

/-! ## Bytes of a character -/

theorem toNat_ofNat (h : a < 256) : (UInt8.ofNat a).toNat = a :=
  Nat.mod_eq_of_lt h

theorem isContinuation_ofNat (h : m < 64) : isContinuation (UInt8.ofNat (m + 128)) := by
  have hall : ∀ m < 64, isContinuation (UInt8.ofNat (m + 128)) := by decide +kernel
  exact hall m h

theorem payload_ofNat (h : m < 64) : payload (UInt8.ofNat (m + 128)) = m := by
  rw [payload, toNat_ofNat (by omega)]
  omega

/-- The byte behind the first of three: nothing that two bytes can tell, and
no surrogate. -/
theorem mayFollow_three (ha : a < 16) (hm : m < 64) (hshort : a = 0 → 32 ≤ m)
    (hsurrogate : a = 13 → m < 32) :
    mayFollow (UInt8.ofNat (a + 224)) (UInt8.ofNat (m + 128)) := by
  have hall : ∀ a < 16, ∀ m < 64, (a = 0 → 32 ≤ m) → (a = 13 → m < 32) →
      mayFollow (UInt8.ofNat (a + 224)) (UInt8.ofNat (m + 128)) := by decide +kernel
  exact hall a ha m hm hshort hsurrogate

/-- The byte behind the first of four: nothing that three bytes can tell, and
nothing past the last code point. -/
theorem mayFollow_four (ha : a < 5) (hm : m < 64) (hshort : a = 0 → 16 ≤ m)
    (hlast : a = 4 → m < 16) :
    mayFollow (UInt8.ofNat (a + 240)) (UInt8.ofNat (m + 128)) := by
  have hall : ∀ a < 5, ∀ m < 64, (a = 0 → 16 ≤ m) → (a = 4 → m < 16) →
      mayFollow (UInt8.ofNat (a + 240)) (UInt8.ofNat (m + 128)) := by decide +kernel
  exact hall a ha m hm hshort hlast

/-! ## Reading a character -/

theorem step_one (ha : a < 128) : step (UInt8.ofNat a) bytes = (Char.ofNat a, 0) := by
  have hfirst : ∀ a < 128, UInt8.ofNat a < 0x80 := by decide +kernel
  rw [step.eq_def, if_pos (hfirst a ha), toNat_ofNat (by omega)]

theorem step_two (ha : 2 ≤ a) (ha' : a < 32) (hm : m < 64) :
    step (UInt8.ofNat (a + 192)) (UInt8.ofNat (m + 128) :: bytes) =
      (Char.ofNat (a * 64 + m), 1) := by
  have hfirst : ∀ a < 32, 2 ≤ a → ¬ UInt8.ofNat (a + 192) < 0x80 ∧
      (0xC2 ≤ UInt8.ofNat (a + 192) && UInt8.ofNat (a + 192) ≤ 0xDF) := by decide +kernel
  obtain ⟨hone, htwo⟩ := hfirst a ha' ha
  have hmod : (a + 192) % 32 = a := by omega
  rw [step.eq_def, if_neg hone, if_pos htwo]
  simp only [isContinuation_ofNat hm, if_true, payload_ofNat hm,
    toNat_ofNat (a := a + 192) (by omega), hmod]

theorem step_three (ha : a < 16) (hm : m < 64) (hn : n < 64) (hshort : a = 0 → 32 ≤ m)
    (hsurrogate : a = 13 → m < 32) :
    step (UInt8.ofNat (a + 224)) (UInt8.ofNat (m + 128) :: UInt8.ofNat (n + 128) :: bytes) =
      (Char.ofNat (a * 4096 + m * 64 + n), 2) := by
  have hfirst : ∀ a < 16, ¬ UInt8.ofNat (a + 224) < 0x80 ∧
      ¬ (0xC2 ≤ UInt8.ofNat (a + 224) && UInt8.ofNat (a + 224) ≤ 0xDF) ∧
      (0xE0 ≤ UInt8.ofNat (a + 224) && UInt8.ofNat (a + 224) ≤ 0xEF) := by decide +kernel
  obtain ⟨hone, htwo, hthree⟩ := hfirst a ha
  have hmod : (a + 224) % 16 = a := by omega
  rw [step.eq_def, if_neg hone, if_neg htwo, if_pos hthree]
  simp only [mayFollow_three ha hm hshort hsurrogate, isContinuation_ofNat hn, if_true,
    payload_ofNat hm, payload_ofNat hn, toNat_ofNat (a := a + 224) (by omega), hmod]

theorem step_four (ha : a < 5) (hm : m < 64) (hn : n < 64) (ho : o < 64)
    (hshort : a = 0 → 16 ≤ m) (hlast : a = 4 → m < 16) :
    step (UInt8.ofNat (a + 240)) (UInt8.ofNat (m + 128) :: UInt8.ofNat (n + 128) ::
      UInt8.ofNat (o + 128) :: bytes) = (Char.ofNat (a * 262144 + m * 4096 + n * 64 + o), 3) := by
  have hfirst : ∀ a < 5, ¬ UInt8.ofNat (a + 240) < 0x80 ∧
      ¬ (0xC2 ≤ UInt8.ofNat (a + 240) && UInt8.ofNat (a + 240) ≤ 0xDF) ∧
      ¬ (0xE0 ≤ UInt8.ofNat (a + 240) && UInt8.ofNat (a + 240) ≤ 0xEF) ∧
      (0xF0 ≤ UInt8.ofNat (a + 240) && UInt8.ofNat (a + 240) ≤ 0xF4) := by decide +kernel
  obtain ⟨hone, htwo, hthree, hfour⟩ := hfirst a ha
  have hmod : (a + 240) % 8 = a := by omega
  rw [step.eq_def, if_neg hone, if_neg htwo, if_neg hthree, if_pos hfour]
  simp only [mayFollow_four ha hm hshort hlast, isContinuation_ofNat hn, isContinuation_ofNat ho,
    if_true, payload_ofNat hm, payload_ofNat hn, payload_ofNat ho,
    toNat_ofNat (a := a + 240) (by omega), hmod]

/-- **A character is read from its bytes**, and no more than these. -/
theorem exists_step (c : Char) : ∃ first more, String.utf8EncodeChar c = first :: more ∧
    ∀ bytes, step first (more ++ bytes) = (c, more.length) := by
  have hc : Char.ofNat c.toNat = c := Char.ofNat_toNat c
  have hvalid : c.toNat < 0xD800 ∨ 0xDFFF < c.toNat ∧ c.toNat < 0x110000 := c.valid
  have hval : c.val.toNat = c.toNat := rfl
  simp only [String.utf8EncodeChar, hval]
  split
  case isTrue hone =>
    refine ⟨_, _, rfl, fun bytes => ?_⟩
    rw [List.nil_append, step_one (by omega), hc]
    rfl
  case isFalse hone =>
    split
    case isTrue htwo =>
      refine ⟨_, _, rfl, fun bytes => ?_⟩
      have hsum : c.toNat / 64 % 32 * 64 + c.toNat % 64 = c.toNat := by omega
      rw [List.singleton_append, step_two (by omega) (by omega) (by omega), hsum, hc]
      rfl
    case isFalse htwo =>
      split
      case isTrue hthree =>
        refine ⟨_, _, rfl, fun bytes => ?_⟩
        have hsum : c.toNat / 4096 % 16 * 4096 + c.toNat / 64 % 64 * 64 + c.toNat % 64 =
            c.toNat := by omega
        rw [List.cons_append, List.singleton_append, step_three (by omega) (by omega) (by omega)
          (by omega) (by omega), hsum, hc]
        rfl
      case isFalse hthree =>
        refine ⟨_, _, rfl, fun bytes => ?_⟩
        have hsum : c.toNat / 262144 % 8 * 262144 + c.toNat / 4096 % 64 * 4096 +
            c.toNat / 64 % 64 * 64 + c.toNat % 64 = c.toNat := by omega
        rw [List.cons_append, List.cons_append, List.singleton_append, step_four (by omega)
          (by omega) (by omega) (by omega) (by omega) (by omega), hsum, hc]
        rfl

theorem repairFrom_encode (done : List Char) (text : String) :
    repairFrom done (encode text) = done.reverse ++ text.toList := by
  generalize hcs : text.toList = cs
  induction cs generalizing done text with
  | nil =>
    rw [String.toList_eq_nil_iff.1 hcs, List.append_nil]
    exact repairFrom.eq_1 done
  | cons c cs ih =>
    obtain ⟨first, more, hchar, hstep⟩ := exists_step c
    rw [encode_eq_of_toList hcs, hchar, List.cons_append, repairFrom]
    simp only [hstep, List.drop_left]
    rw [ih _ _ String.toList_ofList, List.reverse_cons, List.append_assoc, List.singleton_append]

/-- **A text is read as it is.** -/
theorem repair_encode (text : String) : repair (encode text) = text := by
  rw [repair, repairFrom_encode, List.reverse_nil, List.nil_append, String.ofList_toList]

end Utf8

end Remedy
