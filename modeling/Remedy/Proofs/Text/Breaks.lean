import Mathlib
import Remedy.Proofs.Text.LineMap
/-!
# Styles of breaks

The breaks of two texts are those of the text they make up, unless they meet
inside of a `\r\n` (`breaksOf_append`). A text whose breaks are all of one
kind is uniform: the detected style is that of the one break
(`LineEnding.detect_eq_ofBreak_iff`), and uniform texts can be put together
and cut anywhere but inside of a break (`Uniform.append`,
`uniform_append_iff`). Putting a text in a style leaves its lines as they are
but for their breaks (`LineEnding.scan_apply`), and what detects the style,
counts the lines and puts the text in another style sees nothing else
(`LineEnding.converts`).
-/

namespace Remedy

/-! ### The breaks of characters -/

namespace Line

variable {cs ds : List Char} {b : LineBreak}

/-- The breaks of characters, in order. -/
def breaksOf : List Char → List LineBreak
  | [] => []
  | '\r' :: '\n' :: rest => .crlf :: breaksOf rest
  | '\r' :: rest => .cr :: breaksOf rest
  | '\n' :: rest => .lf :: breaksOf rest
  | _ :: rest => breaksOf rest

/-- They are those that the scanned lines have. -/
theorem filterMap_ending_scanFrom (content : List Char) (done : List Line) (cs : List Char) :
    (scanFrom content done cs).filterMap ending =
      done.reverse.filterMap ending ++ breaksOf cs := by
  induction content, done, cs using scanFrom.induct with
  | case1 content done => simp [scanFrom, breaksOf]
  | case2 content done rest ih => simp [scanFrom, breaksOf, ih]
  | case3 content done rest hcrlf ih =>
    rw [scanFrom, breaksOf, ih]
    · simp
    all_goals exact hcrlf
  | case4 content done rest ih => simp [scanFrom, breaksOf, ih]
  | case5 content done c rest hcr hcrlf hlf ih =>
    rw [scanFrom, breaksOf, ih]
    all_goals assumption

theorem filterMap_ending_scan (text : String) :
    (scan text).filterMap ending = breaksOf text.toList :=
  filterMap_ending_scanFrom [] [] text.toList

/-- **The breaks of two parts** are those of the whole, unless the parts meet
inside of a break. -/
theorem breaksOf_append (h : ¬ SplitsBreak cs ds) :
    breaksOf (cs ++ ds) = breaksOf cs ++ breaksOf ds := by
  obtain ⟨ahead, begun, hcs, hall⟩ := exists_scanFrom_append [] [] h
  have hfirst := filterMap_ending_scanFrom [] [] cs
  have hboth := filterMap_ending_scanFrom [] [] (cs ++ ds)
  have hbegun : [(⟨begun, none⟩ : Line)].filterMap ending = [] := rfl
  rw [hcs, List.filterMap_append, hbegun, List.append_nil] at hfirst
  rw [hall, List.filterMap_append, filterMap_ending_scanFrom] at hboth
  exact hboth.symm.trans (congrArg (· ++ breaksOf ds) hfirst)

/-- There are no breaks if and only if there are no characters of breaks. -/
theorem breaksOf_eq_nil_iff : breaksOf cs = [] ↔ ∀ c ∈ cs, c ≠ '\r' ∧ c ≠ '\n' := by
  induction cs using breaksOf.induct with
  | case1 => simp [breaksOf]
  | case2 rest ih => simp [breaksOf]
  | case3 rest hcrlf ih =>
    rw [breaksOf]
    · simp
    · exact hcrlf
  | case4 rest ih => simp [breaksOf]
  | case5 c rest hcr hcrlf hlf ih =>
    rw [breaksOf, ih, List.forall_mem_cons]
    · exact (and_iff_right ⟨hcrlf, hlf⟩).symm
    all_goals assumption

/-! ### Uniform characters -/

/-- **Characters are uniform** if all their breaks are of one kind. -/
def Uniform (b : LineBreak) (cs : List Char) : Prop := ∀ e ∈ breaksOf cs, e = b

/-- Characters that end in a `\r` have a lone one, -/
theorem cr_mem_breaksOf (h : cs.getLast? = some '\r') : .cr ∈ breaksOf cs := by
  obtain ⟨front, rfl⟩ := List.getLast?_eq_some_iff.1 h
  have hnot : ¬ SplitsBreak front ['\r'] := fun hsplits => by cases hsplits.2
  rw [breaksOf_append hnot]
  exact List.mem_append_right _ List.mem_cons_self

/-- and those that begin with a `\n` have that one. -/
theorem lf_mem_breaksOf (h : ds.head? = some '\n') : .lf ∈ breaksOf ds := by
  obtain ⟨rest, rfl⟩ := List.head?_eq_some_iff.1 h
  rw [breaksOf]
  exact List.mem_cons_self

/-- **Uniform parts do not meet inside of a break.** -/
theorem Uniform.not_splitsBreak (hcs : Uniform b cs) (hds : Uniform b ds) :
    ¬ SplitsBreak cs ds := by
  rintro ⟨hlast, hfirst⟩
  have hcr := hcs _ (cr_mem_breaksOf hlast)
  have hlf := hds _ (lf_mem_breaksOf hfirst)
  cases hcr.trans hlf.symm

theorem uniform_append_iff (h : ¬ SplitsBreak cs ds) :
    Uniform b (cs ++ ds) ↔ Uniform b cs ∧ Uniform b ds := by
  simp only [Uniform, breaksOf_append h, List.mem_append, or_imp, forall_and]

/-- **Uniform parts make up a uniform whole.** -/
theorem Uniform.append (hcs : Uniform b cs) (hds : Uniform b ds) : Uniform b (cs ++ ds) :=
  (uniform_append_iff (hcs.not_splitsBreak hds)).2 ⟨hcs, hds⟩

end Line

namespace Text

/-- A text has a break. -/
def HasBreak (text : String) : Prop := ∃ c ∈ text.toList, c = '\r' ∨ c = '\n'

instance (text : String) : Decidable (HasBreak text) :=
  inferInstanceAs (Decidable (∃ c ∈ text.toList, c = '\r' ∨ c = '\n'))

theorem hasBreak_iff {text : String} : HasBreak text ↔ Line.breaksOf text.toList ≠ [] := by
  rw [ne_eq, Line.breaksOf_eq_nil_iff, HasBreak]
  simp only [not_forall, not_and_or, not_not, exists_prop]

end Text

namespace LineEnding

variable {text : String} {b d : LineBreak}

/-! ### The detected style -/

theorem ofBreak_injective : Function.Injective ofBreak := by
  intro b d h
  cases b <;> cases d <;> first | rfl | cases h

theorem detect_eq_none_iff : detect text = .none ↔ ¬ Text.HasBreak text := by
  rw [Text.hasBreak_iff, not_not, detect, Line.filterMap_ending_scan]
  cases Line.breaksOf text.toList with
  | nil => simp
  | cons e breaks =>
    simp only [reduceCtorEq, iff_false]
    split
    · cases e <;> decide
    · decide

/-- **The style of a break is detected** if and only if there are breaks and
all of them are that one. -/
theorem detect_eq_ofBreak_iff : detect text = .ofBreak b ↔
    Text.HasBreak text ∧ Line.Uniform b text.toList := by
  rw [Text.hasBreak_iff, Line.Uniform, detect, Line.filterMap_ending_scan]
  cases Line.breaksOf text.toList with
  | nil => cases b <;> simp [ofBreak]
  | cons e breaks =>
    simp only [List.forall_mem_cons, ne_eq, reduceCtorEq, not_false_eq_true, true_and]
    split
    case isTrue hall =>
      have hsame : ∀ x ∈ breaks, x = e := fun x hx => eq_of_beq (List.all_eq_true.1 hall x hx)
      constructor
      · intro h
        cases ofBreak_injective h
        exact ⟨rfl, hsame⟩
      · rintro ⟨rfl, -⟩
        rfl
    case isFalse hall =>
      constructor
      · intro h
        cases b <;> cases h
      · rintro ⟨rfl, hsame⟩
        exact absurd (List.all_eq_true.2 fun x hx => beq_iff_eq.2 (hsame x hx)) hall

/-! ### Texts put in a style -/

end LineEnding

namespace Line

theorem withBreak_withBreak (b d : LineBreak) (line : Line) :
    withBreak b (withBreak d line) = withBreak b line := by
  rw [withBreak, withBreak, withBreak, Option.map_map]
  rfl

/-- The lines of a line with a break ahead of others. -/
theorem Divides.cons {content cs : List Char} {lines : List Line} {b : LineBreak}
    (hfree : ∀ c ∈ content, c ≠ '\r' ∧ c ≠ '\n') (hlone : b = .cr → cs.head? ≠ some '\n')
    (hrest : Divides cs lines) :
    Divides (chars ⟨content, some b⟩ ++ cs) (⟨content, some b⟩ :: lines) := by
  rw [chars, List.append_assoc]
  cases b with
  | lf => exact .lf hfree hrest
  | crlf => exact .crlf hfree hrest
  | cr => exact .cr hfree (hlone rfl) hrest

/-- Lines whose breaks are all a `\r` do not begin with a `\n`. -/
theorem head?_withBreak_cr {cs : List Char} {lines : List Line} (h : Divides cs lines) :
    ((lines.map (withBreak .cr)).flatMap chars).head? ≠ some '\n' := by
  have hhead : ∀ {content rest : List Char}, (∀ c ∈ content, c ≠ '\r' ∧ c ≠ '\n') →
      rest.head? ≠ some '\n' → (content ++ rest).head? ≠ some '\n' := by
    intro content rest hfree hrest
    cases content with
    | nil => exact hrest
    | cons c content => simpa using (hfree c List.mem_cons_self).2
  cases h with
  | last hfree =>
    simp only [List.map_singleton, List.flatMap_singleton, withBreak, chars, Option.map_none]
    exact hhead hfree (by simp)
  | lf hfree | crlf hfree | cr hfree =>
    simp only [List.map_cons, List.flatMap_cons, withBreak, chars, Option.map_some,
      Option.getD_some, List.append_assoc]
    exact hhead hfree (by simp [LineBreak.chars])

/-- **With other breaks the lines stay**, whatever breaks they had. -/
theorem Divides.withBreak {cs : List Char} {lines : List Line} (h : Divides cs lines)
    (b : LineBreak) :
    Divides ((lines.map (withBreak b)).flatMap chars) (lines.map (withBreak b)) := by
  -- only a `\r` could make one break with what follows, which begins with no `\n`
  have hlone : ∀ {cs : List Char} {lines : List Line}, Divides cs lines →
      b = .cr → ((lines.map (Line.withBreak b)).flatMap chars).head? ≠ some '\n' := by
    rintro cs lines hlines rfl
    exact head?_withBreak_cr hlines
  induction h with
  | @last content hfree =>
    rw [List.map_singleton, List.flatMap_singleton, Line.withBreak, chars]
    simpa using Divides.last hfree
  | lf hfree hrest ih | crlf hfree hrest ih | cr hfree _ hrest ih =>
    rw [List.map_cons, List.flatMap_cons]
    exact Divides.cons hfree (hlone hrest) ih

end Line

namespace LineEnding

variable {text : String} {b d : LineBreak}

/-- **The lines of a text in a style** are those of the text with the break of
the style. -/
theorem scan_apply (b : LineBreak) (text : String) :
    Line.scan ((ofBreak b).apply text) = (Line.scan text).map (Line.withBreak b) := by
  refine Line.divides_iff.1 ?_
  rw [toList_apply]
  exact (Line.divides_iff.2 (Eq.refl (Line.scan text))).withBreak b

/-- **The last style stays.** -/
theorem apply_apply (b d : LineBreak) (text : String) :
    (ofBreak b).apply ((ofBreak d).apply text) = (ofBreak b).apply text := by
  apply String.toList_inj.1
  rw [toList_apply, toList_apply, scan_apply, List.map_map]
  exact congrArg (fun f => ((Line.scan text).map f).flatMap Line.chars)
    (funext (Line.withBreak_withBreak b d))

theorem breaksOf_apply (b : LineBreak) (text : String) :
    Line.breaksOf ((ofBreak b).apply text).toList =
      (Line.breaksOf text.toList).map fun _ => b := by
  rw [← Line.filterMap_ending_scan, ← Line.filterMap_ending_scan, scan_apply, List.filterMap_map,
    List.map_filterMap]
  rfl

/-- **A text in a style is uniform.** -/
theorem uniform_apply (b : LineBreak) (text : String) :
    Line.Uniform b ((ofBreak b).apply text).toList := by
  intro e he
  rw [breaksOf_apply, List.mem_map] at he
  obtain ⟨-, -, rfl⟩ := he
  rfl

theorem hasBreak_apply : Text.HasBreak ((ofBreak b).apply text) ↔ Text.HasBreak text := by
  rw [Text.hasBreak_iff, Text.hasBreak_iff, breaksOf_apply, ne_eq, List.map_eq_nil_iff]

/-- **A style is what its texts are detected to have**, and nothing but breaks
is changed: putting a text in a style. -/
structure Converts (b : LineBreak) (text : String) : Prop where
  /-- each of the passes that know lines sees the same ones, before and after -/
  agrees : Sweep.Agrees text ∧ Sweep.Agrees ((ofBreak b).apply text)
  detected : detect ((ofBreak b).apply text) = if Text.HasBreak text then ofBreak b else .none
  lastStays : ∀ d, (ofBreak b).apply ((ofBreak d).apply text) = (ofBreak b).apply text
  lines : (LineIndex.ofText ((ofBreak b).apply text)).starts.length =
    (LineIndex.ofText text).starts.length
  contents : ∀ n < (LineIndex.ofText text).starts.length, ∃ content,
    LineIndex.contentAt? ((ofBreak b).apply text) n = some content ∧
      LineIndex.contentAt? text n = some content

theorem converts (b : LineBreak) (text : String) : Converts b text where
  agrees := ⟨Sweep.agrees text, Sweep.agrees _⟩
  detected := by
    split
    case isTrue hbreak =>
      exact detect_eq_ofBreak_iff.2 ⟨hasBreak_apply.2 hbreak, uniform_apply b text⟩
    case isFalse hnone => exact detect_eq_none_iff.2 (mt hasBreak_apply.1 hnone)
  lastStays := fun d => apply_apply b d text
  lines := by
    rw [LineIndex.length_starts, LineIndex.length_starts, scan_apply, List.length_map]
  contents := by
    intro n hn
    rw [LineIndex.length_starts] at hn
    rw [(LineIndex.line_eq _ n).1, (LineIndex.line_eq _ n).1, scan_apply, List.getElem?_map,
      List.getElem?_eq_getElem hn]
    exact ⟨_, rfl, rfl⟩

/-- Each `\r` that no `\n` follows is a break of its own, the last one too. -/
example : (ofBreak .crlf).apply "a\n\rb\r\r\nc\r" = "a\r\n\r\nb\r\n\r\nc\r\n" := by
  decide

end LineEnding

end Remedy
