import Mathlib
import Remedy.Text.Utf16
/-!
# UTF-16 is read back

Two layers lie between a text and its bytes: characters are written in code
units and code units in bytes. For each layer one lemma says that what is
written for one item is read as this item, one that what is read as an item
was written for it, and both are carried through a whole sequence. Together
they make decoding the exact inverse of encoding (`decode?_eq_some_iff`).
-/

namespace Remedy

namespace Utf16

variable {order : ByteOrder} {bytes : Bytes} {units : List Nat} {chars : List Char}

/-! ## Code units in bytes -/

theorem unitOf_lt (order : ByteOrder) (a b : UInt8) : unitOf order a b < 0x10000 := by
  have ha := a.toNat_lt
  have hb := b.toNat_lt
  cases order <;> simp only [unitOf] <;> omega

/-- Two bytes are the ones of the unit they are read as. -/
theorem bytesOf_unitOf (order : ByteOrder) (a b : UInt8) :
    bytesOf order (unitOf order a b) = [a, b] := by
  have ha := a.toNat_lt
  have hb := b.toNat_lt
  have hhi (m n : Nat) (hn : n < 2 ^ 8) : (m * 256 + n) / 256 = m := by omega
  have hlo (m n : Nat) (hn : n < 2 ^ 8) : (m * 256 + n) % 256 = n := by omega
  cases order with
  | little =>
    simp only [bytesOf, unitOf, hhi _ _ ha, hlo _ _ ha, UInt8.ofNat_toNat]
  | big =>
    simp only [bytesOf, unitOf, hhi _ _ hb, hlo _ _ hb, UInt8.ofNat_toNat]

/-- A unit is read from its two bytes. -/
theorem units?_bytesOf_append {unit : Nat} (hunit : unit < 0x10000) (done : List Nat)
    (rest : Bytes) :
    units? order done (bytesOf order unit ++ rest) = units? order (unit :: done) rest := by
  have hhi : (UInt8.ofNat (unit / 256)).toNat = unit / 256 :=
    UInt8.toNat_ofNat_of_lt' (by simp only [UInt8.size]; omega)
  have hlo : (UInt8.ofNat (unit % 256)).toNat = unit % 256 :=
    UInt8.toNat_ofNat_of_lt' (by simp only [UInt8.size]; omega)
  have hjoin : unit / 256 * 256 + unit % 256 = unit := by omega
  cases order <;>
    simp only [bytesOf, List.cons_append, List.nil_append, units?, unitOf, hhi, hlo, hjoin]

theorem units?_flatMap (hunits : ∀ unit ∈ units, unit < 0x10000) (done : List Nat) :
    units? order done (units.flatMap (bytesOf order)) = some (done.reverse ++ units) := by
  induction units generalizing done with
  | nil => simp [units?]
  | cons unit units ih =>
    rw [List.flatMap_cons, units?_bytesOf_append (hunits unit List.mem_cons_self),
      ih (fun u hu => hunits u (List.mem_cons_of_mem unit hu)), List.reverse_cons,
      List.append_assoc, List.singleton_append]

/-- Units that were read have the bytes they were read from. -/
theorem exists_of_units? {done : List Nat} (h : units? order done bytes = some units) :
    ∃ read, units = done.reverse ++ read ∧ (∀ unit ∈ read, unit < 0x10000) ∧
      bytes = read.flatMap (bytesOf order) := by
  induction done, bytes using units?.induct order with
  | case1 done =>
    rw [units?, Option.some.injEq] at h
    exact ⟨[], by rw [List.append_nil, h], by simp, rfl⟩
  | case2 done a b rest ih =>
    rw [units?] at h
    obtain ⟨read, hunits, hbound, hrest⟩ := ih h
    refine ⟨unitOf order a b :: read, ?_, ?_, ?_⟩
    · rw [hunits, List.reverse_cons, List.append_assoc, List.singleton_append]
    · exact List.forall_mem_cons.2 ⟨unitOf_lt order a b, hbound⟩
    · rw [List.flatMap_cons, bytesOf_unitOf, ← hrest]
      rfl
  | case3 done a => rw [units?] at h; cases h

/-! ## Characters in code units -/

/-- A unit that is no surrogate is a character of its own. -/
theorem toNat_ofNat_of_basic {unit : Nat} (hunit : unit < 0x10000) (hhigh : ¬ isHigh unit)
    (hlow : ¬ isLow unit) : (Char.ofNat unit).toNat = unit := by
  simp only [isHigh, isLow, Bool.and_eq_true, decide_eq_true_eq] at hhigh hlow
  have hvalid : unit.isValidChar := by
    simp only [Nat.isValidChar]
    omega
  rw [Char.toNat_ofNat, if_pos hvalid]

/-- Two surrogates name a character beyond the basic plane. -/
theorem toNat_ofNat_of_pair {high low : Nat} (hhigh : isHigh high) (hlow : isLow low) :
    (Char.ofNat (0x10000 + (high - 0xD800) * 0x400 + (low - 0xDC00))).toNat =
      0x10000 + (high - 0xD800) * 0x400 + (low - 0xDC00) := by
  simp only [isHigh, isLow, Bool.and_eq_true, decide_eq_true_eq] at hhigh hlow
  have hvalid : (0x10000 + (high - 0xD800) * 0x400 + (low - 0xDC00)).isValidChar := by
    simp only [Nat.isValidChar]
    omega
  rw [Char.toNat_ofNat, if_pos hvalid]

/-- A character of the basic plane is no surrogate. -/
theorem toNat_basic {c : Char} (hbasic : c.toNat < 0x10000) :
    ¬ isHigh c.toNat ∧ ¬ isLow c.toNat := by
  have hvalid : c.toNat < 0xD800 ∨ 0xDFFF < c.toNat ∧ c.toNat < 0x110000 := c.valid
  simp only [isHigh, isLow, Bool.and_eq_true, decide_eq_true_eq]
  omega

/-- The units of a character beyond the basic plane are a pair. -/
theorem isHigh_isLow {n : Nat} (hbeyond : 0x10000 ≤ n) (hlast : n < 0x110000) :
    isHigh (0xD800 + (n - 0x10000) / 0x400) ∧ isLow (0xDC00 + (n - 0x10000) % 0x400) := by
  simp only [isHigh, isLow, Bool.and_eq_true, decide_eq_true_eq]
  omega

theorem toNat_lt (c : Char) : c.toNat < 0x110000 := by
  have hvalid : c.toNat < 0xD800 ∨ 0xDFFF < c.toNat ∧ c.toNat < 0x110000 := c.valid
  omega

theorem unitsOf_lt {c : Char} {unit : Nat} (h : unit ∈ unitsOf c) : unit < 0x10000 := by
  have hlast := toNat_lt c
  rw [unitsOf] at h
  split at h
  case isTrue hbasic => rwa [List.mem_singleton.1 h]
  case isFalse hbeyond =>
    rcases List.mem_pair.1 h with h | h <;> omega

/-- A unit that is no surrogate is read on its own. -/
theorem chars?_cons_of_basic {unit : Nat} (hhigh : ¬ isHigh unit) (hlow : ¬ isLow unit)
    (done : List Char) (rest : List Nat) :
    chars? done (unit :: rest) = chars? (Char.ofNat unit :: done) rest := by
  rw [chars?.eq_def]
  simp only [if_neg hhigh, if_neg hlow]

/-- A character is read from its units. -/
theorem chars?_unitsOf_append (c : Char) (done : List Char) (rest : List Nat) :
    chars? done (unitsOf c ++ rest) = chars? (c :: done) rest := by
  rw [unitsOf]
  split
  case isTrue hbasic =>
    obtain ⟨hhigh, hlow⟩ := toNat_basic hbasic
    rw [List.singleton_append, chars?_cons_of_basic hhigh hlow, Char.ofNat_toNat]
  case isFalse hbeyond =>
    obtain ⟨hhigh, hlow⟩ := isHigh_isLow (Nat.le_of_not_lt hbeyond) (toNat_lt c)
    have hjoin : 0x10000 + (0xD800 + (c.toNat - 0x10000) / 0x400 - 0xD800) * 0x400 +
        (0xDC00 + (c.toNat - 0x10000) % 0x400 - 0xDC00) = c.toNat := by
      omega
    rw [List.cons_append, List.singleton_append, chars?, if_pos hhigh, if_pos hlow, hjoin,
      Char.ofNat_toNat]

/-- The units of a basic character that was read. -/
theorem unitsOf_ofNat_of_basic {unit : Nat} (hunit : unit < 0x10000) (hhigh : ¬ isHigh unit)
    (hlow : ¬ isLow unit) : unitsOf (Char.ofNat unit) = [unit] := by
  rw [unitsOf, toNat_ofNat_of_basic hunit hhigh hlow, if_pos hunit]

/-- The units of a character that was read from a pair. -/
theorem unitsOf_ofNat_of_pair {high low : Nat} (hhigh : isHigh high) (hlow : isLow low) :
    unitsOf (Char.ofNat (0x10000 + (high - 0xD800) * 0x400 + (low - 0xDC00))) = [high, low] := by
  rw [unitsOf, toNat_ofNat_of_pair hhigh hlow]
  simp only [isHigh, isLow, Bool.and_eq_true, decide_eq_true_eq] at hhigh hlow
  rw [if_neg (by omega)]
  have hhi : 0xD800 + (0x10000 + (high - 0xD800) * 0x400 + (low - 0xDC00) - 0x10000) / 0x400 =
      high := by
    omega
  have hlo : 0xDC00 + (0x10000 + (high - 0xD800) * 0x400 + (low - 0xDC00) - 0x10000) % 0x400 =
      low := by
    omega
  rw [hhi, hlo]

theorem chars?_flatMap (chars done : List Char) :
    chars? done (chars.flatMap unitsOf) = some (done.reverse ++ chars) := by
  induction chars generalizing done with
  | nil => simp [chars?]
  | cons c chars ih =>
    rw [List.flatMap_cons, chars?_unitsOf_append, ih, List.reverse_cons, List.append_assoc,
      List.singleton_append]

/-- Characters that were read have the units they were read from. -/
theorem exists_of_chars? {done : List Char} (hunits : ∀ unit ∈ units, unit < 0x10000)
    (h : chars? done units = some chars) :
    ∃ read, chars = done.reverse ++ read ∧ units = read.flatMap unitsOf := by
  induction done, units using chars?.induct with
  | case1 done =>
    rw [chars?, Option.some.injEq] at h
    exact ⟨[], by rw [List.append_nil, h], rfl⟩
  | case2 done high hhigh low rest hlow ih =>
    rw [chars?, if_pos hhigh, if_pos hlow] at h
    obtain ⟨read, hchars, hrest⟩ := ih
      (fun u hu => hunits u (List.mem_cons_of_mem _ (List.mem_cons_of_mem _ hu))) h
    refine ⟨Char.ofNat (0x10000 + (high - 0xD800) * 0x400 + (low - 0xDC00)) :: read, ?_, ?_⟩
    · rw [hchars, List.reverse_cons, List.append_assoc, List.singleton_append]
    · rw [List.flatMap_cons, unitsOf_ofNat_of_pair hhigh hlow, ← hrest]
      rfl
  | case3 done high hhigh low rest hlow =>
    rw [chars?, if_pos hhigh, if_neg hlow] at h
    cases h
  | case4 done high hhigh =>
    rw [chars?, if_pos hhigh] at h
    cases h
  | case5 done unit rest hhigh hlow =>
    rw [chars?.eq_def] at h
    simp only [if_neg hhigh, if_pos hlow] at h
    cases h
  | case6 done unit rest hhigh hlow ih =>
    rw [chars?_cons_of_basic hhigh hlow] at h
    obtain ⟨read, hchars, hrest⟩ := ih (fun u hu => hunits u (List.mem_cons_of_mem _ hu)) h
    refine ⟨Char.ofNat unit :: read, ?_, ?_⟩
    · rw [hchars, List.reverse_cons, List.append_assoc, List.singleton_append]
    · rw [List.flatMap_cons,
        unitsOf_ofNat_of_basic (hunits unit List.mem_cons_self) hhigh hlow, ← hrest]
      rfl

/-! ## Texts in bytes -/

theorem encode_append (order : ByteOrder) (a b : String) :
    encode order (a ++ b) = encode order a ++ encode order b := by
  simp only [encode, String.toList_append, List.flatMap_append]

/-- **Decoding is the inverse of encoding**: bytes are read as a text if and
only if they are what is written for it. -/
theorem decode?_eq_some_iff {text : String} :
    decode? order bytes = some text ↔ encode order text = bytes := by
  simp only [decode?, encode, Option.bind_eq_bind, Option.bind_eq_some_iff]
  constructor
  · rintro ⟨units, hunits, chars, hchars, htext⟩
    obtain ⟨read, rfl, hbound, rfl⟩ := exists_of_units? hunits
    obtain ⟨readChars, rfl, hread⟩ := exists_of_chars? hbound hchars
    cases htext
    rw [String.toList_ofList]
    exact congrArg (List.flatMap (bytesOf order)) hread.symm
  · rintro rfl
    have hbound : ∀ unit ∈ text.toList.flatMap unitsOf, unit < 0x10000 := by
      intro unit hunit
      obtain ⟨c, -, hc⟩ := List.mem_flatMap.1 hunit
      exact unitsOf_lt hc
    exact ⟨_, units?_flatMap hbound [], _, chars?_flatMap text.toList [],
      congrArg some (String.ofList_toList)⟩

end Utf16

end Remedy
