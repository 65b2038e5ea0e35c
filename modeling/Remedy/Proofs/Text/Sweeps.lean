import Mathlib
import Remedy.Proofs.Text.Detection
import Remedy.Proofs.Text.Place
/-!
# Lines by sweeps

What the line index, the detected style and the text in a style make of the
lines of a text can each be found in one pass that never looks at the lines:
the starts by going over the bytes (`Sweep.startsFrom`), the style by counting
the breaks among the bytes (`Sweep.count`), and the text in a style by going
over the characters (`Sweep.rewrite`). Each pass looks one place ahead to tell
`\r\n` from a `\r`. They are followed here line by line: a pass goes through
the content of a line without a change and then meets the break
(`Line.Divides`). So all three see the same breaks (`Sweep.agrees`).
-/

namespace Remedy

namespace Sweep

/-! ### Bytes -/

variable {cs ds free : List Char}

/-- The bytes of characters. -/
def bytes (cs : List Char) : Bytes := Utf8.encode (String.ofList cs)

theorem bytes_append (cs ds : List Char) : bytes (cs ++ ds) = bytes cs ++ bytes ds := by
  rw [bytes, String.ofList_append, Utf8.encode_append, bytes, bytes]

theorem bytes_cons {c : Char} {b : UInt8} (hc : String.utf8EncodeChar c = [b]) (cs : List Char) :
    bytes (c :: cs) = b :: bytes cs := by
  rw [bytes, Utf8.encode_eq_of_toList String.toList_ofList, hc, bytes, List.singleton_append]

@[simp] theorem bytes_cr (cs : List Char) : bytes ('\r' :: cs) = 0x0D :: bytes cs :=
  bytes_cons (by decide) cs

@[simp] theorem bytes_lf (cs : List Char) : bytes ('\n' :: cs) = 0x0A :: bytes cs :=
  bytes_cons (by decide) cs

theorem length_bytes (cs : List Char) : (bytes cs).length = Text.byteSize cs := by
  rw [bytes, Utf8.encode, Array.length_toList, Text.byteSize_eq]
  rfl

/-- Bytes without breaks. -/
def Free (bs : Bytes) : Prop := ∀ b ∈ bs, b ≠ 0x0D ∧ b ≠ 0x0A

theorem free_bytes (hfree : ∀ c ∈ cs, c ≠ '\r' ∧ c ≠ '\n') : Free (bytes cs) := by
  have hcr : '\r' ∉ (String.ofList cs).toList := by
    rw [String.toList_ofList]
    exact fun h => (hfree _ h).1 rfl
  have hlf : '\n' ∉ (String.ofList cs).toList := by
    rw [String.toList_ofList]
    exact fun h => (hfree _ h).2 rfl
  intro b hb
  constructor
  · rintro rfl
    exact Utf8.not_mem_encode (by decide) hcr hb
  · rintro rfl
    exact Utf8.not_mem_encode (by decide) hlf hb

/-- The bytes of characters that do not begin with a `\n`. -/
theorem bytes_ne_lf (h : cs.head? ≠ some '\n') (rest : Bytes) : bytes cs ≠ 0x0A :: rest := by
  intro hbytes
  have hlf : String.utf8EncodeChar '\n' = [0x0A] := by decide
  have hhead := Utf8.head?_eq_some_iff.2 ⟨rest, by rw [hlf]; exact hbytes⟩
  rw [String.toList_ofList] at hhead
  exact h hhead

/-! ### Starts of lines -/

/-- The offsets behind the breaks of bytes, where the first byte is at an
offset. -/
def startsFrom (o : Nat) : Bytes → List Nat
  | [] => []
  | 0x0D :: 0x0A :: rest => (o + 2) :: startsFrom (o + 2) rest
  | 0x0D :: rest => (o + 1) :: startsFrom (o + 1) rest
  | 0x0A :: rest => (o + 1) :: startsFrom (o + 1) rest
  | _ :: rest => startsFrom (o + 1) rest

/-- The starts of the lines of bytes. -/
def starts (bs : Bytes) : List Nat := 0 :: startsFrom 0 bs

theorem startsFrom_free {free : Bytes} (hfree : Free free) (o : Nat) (rest : Bytes) :
    startsFrom o (free ++ rest) = startsFrom (o + free.length) rest := by
  induction free generalizing o with
  | nil => rfl
  | cons b free ih =>
    obtain ⟨hcr, hlf⟩ := hfree b List.mem_cons_self
    rw [List.cons_append, startsFrom, ih fun d hd => hfree d (List.mem_cons_of_mem b hd),
      List.length_cons, Nat.add_assoc, Nat.add_comm 1]
    · intro _ h
      exact absurd h hcr
    · exact hcr
    · exact hlf

/-- A line ends behind its content and its break. -/
theorem add_size (o : Nat) (content : List Char) (ending : LineBreak) :
    o + (bytes content).length + Text.byteSize ending.chars =
      o + Line.size ⟨content, some ending⟩ := by
  rw [length_bytes, Line.size, Line.chars, Text.byteSize_append, Nat.add_assoc]
  rfl

theorem startsFrom_bytes {lines : List Line} (h : Line.Divides cs lines) (o : Nat) :
    o :: startsFrom o (bytes cs) = LineIndex.startsFrom o lines := by
  -- line by line: the pass goes through the content and then meets the break
  induction h generalizing o with
  | @last content hfree =>
    have hall := startsFrom_free (free_bytes hfree) o []
    rw [List.append_nil] at hall
    rw [hall]
    rfl
  | @lf content cs lines hfree _ ih =>
    have hsize : o + (bytes content).length + 1 = o + Line.size ⟨content, some .lf⟩ :=
      add_size o content .lf
    rw [bytes_append, bytes_lf, startsFrom_free (free_bytes hfree), startsFrom, hsize, ih,
      LineIndex.startsFrom]
  | @crlf content cs lines hfree _ ih =>
    have hsize : o + (bytes content).length + 2 = o + Line.size ⟨content, some .crlf⟩ :=
      add_size o content .crlf
    rw [bytes_append, bytes_cr, bytes_lf, startsFrom_free (free_bytes hfree), startsFrom, hsize,
      ih, LineIndex.startsFrom]
  | @cr content cs lines hfree hlone _ ih =>
    have hsize : o + (bytes content).length + 1 = o + Line.size ⟨content, some .cr⟩ :=
      add_size o content .cr
    rw [bytes_append, bytes_cr, startsFrom_free (free_bytes hfree), startsFrom, hsize, ih,
      LineIndex.startsFrom]
    exact bytes_ne_lf hlone

/-- **The starts of lines by a sweep** over the bytes are those of the line
index. -/
theorem starts_encode (text : String) :
    starts (Utf8.encode text) = (LineIndex.ofText text).starts := by
  have h := startsFrom_bytes (Line.divides_iff.2 (Eq.refl (Line.scan text))) 0
  rw [bytes, String.ofList_toList] at h
  exact h

/-! ### Styles -/

/-- How many breaks of each kind there are. -/
structure Tally where
  lf : Nat
  crlf : Nat
  cr : Nat

/-- Counts the breaks of bytes. -/
def count (t : Tally) : Bytes → Tally
  | [] => t
  | 0x0D :: 0x0A :: rest => count { t with crlf := t.crlf + 1 } rest
  | 0x0D :: rest => count { t with cr := t.cr + 1 } rest
  | 0x0A :: rest => count { t with lf := t.lf + 1 } rest
  | _ :: rest => count t rest

/-- The style of a text with so many breaks. -/
def Tally.style (t : Tally) : LineEnding :=
  match decide (0 < t.lf), decide (0 < t.crlf), decide (0 < t.cr) with
  | false, false, false => .none
  | true, false, false => .lf
  | false, true, false => .crlf
  | false, false, true => .cr
  | _, _, _ => .mixed

/-- The tally with more breaks. -/
def Tally.add (t : Tally) (breaks : List LineBreak) : Tally :=
  ⟨t.lf + breaks.count .lf, t.crlf + breaks.count .crlf, t.cr + breaks.count .cr⟩

theorem count_free {free : Bytes} (hfree : Free free) (t : Tally) (rest : Bytes) :
    count t (free ++ rest) = count t rest := by
  induction free with
  | nil => rfl
  | cons b free ih =>
    obtain ⟨hcr, hlf⟩ := hfree b List.mem_cons_self
    rw [List.cons_append, count, ih fun d hd => hfree d (List.mem_cons_of_mem b hd)]
    · intro _ h
      exact absurd h hcr
    · exact hcr
    · exact hlf

theorem count_bytes {lines : List Line} (h : Line.Divides cs lines) (t : Tally) :
    count t (bytes cs) = t.add (lines.filterMap Line.ending) := by
  induction h generalizing t with
  | @last content hfree =>
    have hall := count_free (free_bytes hfree) t []
    rw [List.append_nil] at hall
    rw [hall]
    rfl
  | lf hfree _ ih =>
    rw [bytes_append, bytes_lf, count_free (free_bytes hfree), count, ih]
    simp [Tally.add, Nat.add_assoc, Nat.add_comm 1]
  | crlf hfree _ ih =>
    rw [bytes_append, bytes_cr, bytes_lf, count_free (free_bytes hfree), count, ih]
    simp [Tally.add, Nat.add_assoc, Nat.add_comm 1]
  | cr hfree hlone _ ih =>
    rw [bytes_append, bytes_cr, count_free (free_bytes hfree), count, ih]
    · simp [Tally.add, Nat.add_assoc, Nat.add_comm 1]
    · exact bytes_ne_lf hlone

/-- The style of a tally is that of breaks that it counts. -/
theorem style_add (breaks : List LineBreak) : (Tally.add ⟨0, 0, 0⟩ breaks).style =
    match breaks with
    | [] => .none
    | b :: breaks => if breaks.all (· == b) then .ofBreak b else .mixed := by
  simp only [Tally.add, Tally.style, Nat.zero_add, List.count_pos_iff]
  cases breaks with
  | nil => rfl
  | cons b breaks =>
    by_cases hall : breaks.all (· == b)
    · have hmem : ∀ e, e ∈ b :: breaks ↔ e = b := by
        intro e
        rw [List.mem_cons, or_iff_left_iff_imp]
        intro he
        exact eq_of_beq (List.all_eq_true.1 hall e he)
      simp only [hmem, hall, if_true]
      cases b <;> rfl
    · have hother : ∃ e ∈ breaks, e ≠ b := by simpa using hall
      obtain ⟨e, he, hne⟩ := hother
      have hfirst : b ∈ b :: breaks := List.mem_cons_self
      have hlater : e ∈ b :: breaks := List.mem_cons_of_mem b he
      simp only [hall, Bool.false_eq_true, if_false]
      -- two of the three kinds are there, whether the third one is or not
      split <;> cases b <;> cases e <;> simp_all

/-- **The style of a text by a count** of the breaks of its bytes is the one
that is detected. -/
theorem style_encode (text : String) :
    (count ⟨0, 0, 0⟩ (Utf8.encode text)).style = LineEnding.detect text := by
  have h := count_bytes (Line.divides_iff.2 (Eq.refl (Line.scan text))) ⟨0, 0, 0⟩
  rw [bytes, String.ofList_toList] at h
  rw [h, style_add]
  rfl

/-! ### Rewriting -/

/-- Puts a text in place of each break. -/
def rewrite (target : List Char) : List Char → List Char
  | [] => []
  | '\r' :: '\n' :: rest => target ++ rewrite target rest
  | '\r' :: rest => target ++ rewrite target rest
  | '\n' :: rest => target ++ rewrite target rest
  | c :: rest => c :: rewrite target rest

/-- A text with one kind of break, which is the same text if it has none. -/
def rewritten (b : LineBreak) (text : String) : String :=
  if text.toList.any fun c => c == '\r' || c == '\n' then
    String.ofList (rewrite b.chars text.toList)
  else text

theorem rewrite_free {free : List Char} (hfree : ∀ c ∈ free, c ≠ '\r' ∧ c ≠ '\n')
    (target rest : List Char) : rewrite target (free ++ rest) = free ++ rewrite target rest := by
  induction free with
  | nil => rfl
  | cons c free ih =>
    obtain ⟨hcr, hlf⟩ := hfree c List.mem_cons_self
    rw [List.cons_append, rewrite, ih fun d hd => hfree d (List.mem_cons_of_mem c hd),
      List.cons_append]
    · intro _ h
      exact absurd h hcr
    · exact hcr
    · exact hlf

end Sweep

/-- The line with another break, if it has one. -/
def Line.withBreak (b : LineBreak) (line : Line) : Line :=
  { line with ending := line.ending.map fun _ => b }

/-- The text in a style is made of the lines with its break. -/
theorem LineEnding.toList_apply (b : LineBreak) (text : String) :
    ((LineEnding.ofBreak b).apply text).toList =
      ((Line.scan text).map (Line.withBreak b)).flatMap Line.chars := by
  rw [List.flatMap_map]
  cases b <;> exact String.toList_ofList

namespace Sweep

theorem rewrite_divided {cs : List Char} {lines : List Line} (h : Line.Divides cs lines)
    (b : LineBreak) :
    rewrite b.chars cs = (lines.map (Line.withBreak b)).flatMap Line.chars := by
  induction h with
  | @last content hfree =>
    have hall := rewrite_free hfree b.chars []
    rw [List.append_nil] at hall
    rw [hall]
    simp [rewrite, Line.withBreak, Line.chars]
  | lf hfree _ ih =>
    rw [rewrite_free hfree, rewrite, ih]
    simp [Line.withBreak, Line.chars]
  | crlf hfree _ ih =>
    rw [rewrite_free hfree, rewrite, ih]
    simp [Line.withBreak, Line.chars]
  | @cr content cs lines hfree hlone _ ih =>
    rw [rewrite_free hfree, rewrite, ih]
    · simp [Line.withBreak, Line.chars]
    · intro rest hrest
      exact hlone (by rw [hrest]; rfl)

/-- **The text in a style by a sweep** over its characters. -/
theorem rewritten_eq (b : LineBreak) (text : String) :
    rewritten b text = (LineEnding.ofBreak b).apply text := by
  have hdivides := Line.divides_iff.2 (Eq.refl (Line.scan text))
  have hrewrite := rewrite_divided hdivides b
  rw [← LineEnding.toList_apply] at hrewrite
  rw [rewritten]
  split
  case isTrue => rw [hrewrite, String.ofList_toList]
  case isFalse hnone =>
    have hfree : ∀ c ∈ text.toList, c ≠ '\r' ∧ c ≠ '\n' := by simpa using hnone
    have hsame := rewrite_free hfree b.chars []
    rw [List.append_nil, hrewrite] at hsame
    exact (String.toList_inj.1 (hsame.trans (List.append_nil _))).symm

/-- **The three passes see the lines of a text.** -/
structure Agrees (text : String) : Prop where
  starts_eq : starts (Utf8.encode text) = (LineIndex.ofText text).starts
  style_eq : (count ⟨0, 0, 0⟩ (Utf8.encode text)).style = LineEnding.detect text
  rewritten_eq : ∀ b, rewritten b text = (LineEnding.ofBreak b).apply text

theorem agrees (text : String) : Agrees text where
  starts_eq := starts_encode text
  style_eq := style_encode text
  rewritten_eq := fun b => rewritten_eq b text

end Sweep

end Remedy
