import Mathlib
import Remedy.Proofs.Pattern.Scopes
/-!
# Patterns with a suffix

The digits behind the last colon of a pattern are read as the number of a
line. A number that fits 32 bits narrows the pattern to this line. Of a greater
one nothing is left: its digits are taken off the pattern and no line is put in
their place, so the rule is for whole files. Alone in a filter the rule tells by
its answers which of the two it is (`PathFilter.narrowed_of_suffix`).
-/

namespace Remedy

namespace PathRule

variable {raw : String} {path digits : List Char} {rule : PathRule} {n : Nat}

/-! ### Numbers -/

/-- The value of a digit. -/
def digitValue (d : Char) : Nat := d.toNat - '0'.toNat

/-- **The number that digits denote**, read in base ten. -/
def denoted (digits : List Char) : Nat := Nat.ofDigits 10 (digits.reverse.map digitValue)

theorem natOfDigits_eq_denoted (digits : List Char) : natOfDigits digits = denoted digits := by
  induction digits using List.reverseRecOn with
  | nil => rfl
  | append_singleton digits d ih =>
    rw [natOfDigits, List.foldl_append, ← natOfDigits, ih, denoted, denoted, List.reverse_append,
      List.reverse_singleton, List.singleton_append, List.map_cons, Nat.ofDigits_cons]
    simp only [List.foldl_cons, List.foldl_nil, digitValue]
    omega

/-- A suffix is the number of a line unless it is past 32 bits. -/
theorem lineOf?_eq (digits : List Char) :
    lineOf? digits = if denoted digits < 2 ^ 32 then some (denoted digits) else none := by
  have hpower : Power.two 32 = 2 ^ 32 := by decide
  rw [lineOf?, natOfDigits_eq_denoted, hpower]

/-- **A pattern with a suffix**: digits stand behind its last colon. -/
structure Suffixed (raw : String) (digits : List Char) : Prop where
  stands : ∃ path, raw.toList = path ++ ':' :: digits
  nonempty : digits ≠ []
  digits : ∀ d ∈ digits, d.isDigit

theorem Suffixed.line (hsuffix : Suffixed raw digits) (h : parse raw = .ok rule) :
    rule.line = if denoted digits < 2 ^ 32 then some (denoted digits) else none := by
  obtain ⟨path, hraw⟩ := hsuffix.stands
  have hsplit := splitLine_eq_iff.2 ⟨hraw, hsuffix.nonempty, hsuffix.digits⟩
  rw [((parse_eq_ok_iff hsplit).1 h).2.2, Option.bind_some, lineOf?_eq]

/-! ### When a rule applies -/

theorem inScope_none_iff : rule.inScope none ↔ rule.line = none := by
  unfold inScope
  cases rule.line <;> simp

theorem inScope_some_iff : rule.inScope (some n) ↔ rule.line = none ∨ rule.line = some n := by
  unfold inScope
  cases rule.line <;> simp

theorem Suffixed.inScope_none_iff (hsuffix : Suffixed raw digits) (h : parse raw = .ok rule) :
    rule.inScope none ↔ 2 ^ 32 ≤ denoted digits := by
  rw [PathRule.inScope_none_iff, hsuffix.line h, ite_eq_right_iff, ← not_lt]
  simp

theorem Suffixed.inScope_some_iff (hsuffix : Suffixed raw digits) (h : parse raw = .ok rule) :
    rule.inScope (some n) ↔ n = denoted digits ∨ 2 ^ 32 ≤ denoted digits := by
  rw [PathRule.inScope_some_iff, hsuffix.line h, ← not_lt]
  split <;> simp_all [eq_comm]

theorem covers_eq (rule : PathRule) (path : String) :
    rule.covers path = rule.coversBy globHits path := rfl

/-- **The rule of a pattern covers the path that the pattern spells**, which has
no `\\` in it. -/
theorem covers_pattern (h : parse raw = .ok rule) :
    rule.covers (Path.display ⟨rule.pattern⟩) := by
  rcases hsplit : splitLine raw.toList with ⟨path, digits?⟩
  have hpattern := ((parse_eq_ok_iff hsplit).1 h).2.1
  have hsame : Path.display ⟨rule.pattern⟩ = rule.pattern := by
    rw [hpattern, Path.display, clean, String.toList_ofList, List.map_map]
    refine congrArg String.ofList (List.map_congr_left fun c _ => ?_)
    by_cases hc : c = '\\' <;> simp [hc]
  simp [covers, hsame]

end PathRule

namespace PathFilter

variable {raw : String} {digits : List Char} {rule : PathRule} {path : Path} {n : Nat}
variable {hits : PathRule → String → Bool} {asked : PathRule → Option Nat}

/-! ### One rule alone -/

theorem longest_singleton :
    longest hits [rule] asked path = rule.specificityBy? hits path.display (asked rule) := by
  rw [longest, List.filterMap_cons]
  cases rule.specificityBy? hits path.display (asked rule) <;> rfl

theorem specificityBy?_of_applies {text : String} {line : Option Nat} (hscope : rule.inScope line)
    (hcovers : rule.covers text) :
    rule.specificityBy? PathRule.globHits text line = some rule.pattern.utf8ByteSize := by
  rw [PathRule.specificityBy?, ← PathRule.covers_eq, hscope, hcovers]
  rfl

theorem specificityBy?_eq_none_iff {text : String} {line : Option Nat} :
    rule.specificityBy? PathRule.globHits text line = none ↔
      ¬ (rule.inScope line ∧ rule.covers text) := by
  rw [PathRule.specificityBy?, ← PathRule.covers_eq]
  cases rule.inScope line <;> cases rule.covers text <;> simp

/-- **What an include allows** that is the only rule. -/
theorem allowsLine_onlyInclude :
    allowsLine ⟨[rule], []⟩ path n ↔ rule.inScope (some n) ∧ rule.covers path.display := by
  have hsome : ([rule] : List PathRule).isEmpty ≠ true := Bool.false_ne_true
  rw [allowsLine_eq, allowsLineBy, decide_iff, longest_singleton, if_neg hsome, Ne,
    specificityBy?_eq_none_iff, not_not]
  exact and_iff_left Option.none_le

theorem allowsFile_onlyInclude :
    allowsFile ⟨[rule], []⟩ path ↔ rule.covers path.display := by
  have hsome : ([rule] : List PathRule).isEmpty ≠ true := Bool.false_ne_true
  rw [allowsFile_eq, allowsFileBy, decide_iff, longest_singleton, if_neg hsome, Ne,
    specificityBy?_eq_none_iff, not_not, and_iff_right rule.inScope_line]
  exact and_iff_left Option.none_le

/-- **What an exclude allows** that is the only rule. -/
theorem allowsLine_onlyExclude :
    allowsLine ⟨[], [rule]⟩ path n ↔ ¬ (rule.inScope (some n) ∧ rule.covers path.display) := by
  rw [allowsLine_eq, allowsLineBy, decide_iff, longest_singleton, if_pos List.isEmpty_nil,
    specificityBy?_eq_none_iff]

theorem allowsFile_onlyExclude :
    allowsFile ⟨[], [rule]⟩ path ↔ ¬ (rule.inScope none ∧ rule.covers path.display) := by
  rw [allowsFile_eq, allowsFileBy, decide_iff, longest_singleton, if_pos List.isEmpty_nil,
    specificityBy?_eq_none_iff]

theorem mapM_parse_singleton (h : PathRule.parse raw = .ok rule) :
    [raw].mapM PathRule.parse = .ok [rule] := by
  rw [List.mapM_cons, h]
  rfl

theorem ofPatterns_eq_ok {includes excludes : List String} {included excluded : List PathRule}
    (h : includes.mapM PathRule.parse = .ok included)
    (h' : excludes.mapM PathRule.parse = .ok excluded) :
    ofPatterns includes excludes = .ok ⟨included, excluded⟩ := by
  rw [ofPatterns, h, h']
  rfl

/-! ### Patterns for one line -/

/-- **A pattern is for one line only**: as the only include it allows no other
line, and as the only exclude it allows each file and each other line. -/
structure OneLineOnly (raw : String) (number : Nat) : Prop where
  included : ∀ filter, ofPatterns [raw] [] = .ok filter →
    ∀ path, ∀ n < 2 ^ 32, filter.allowsLine path n → n = number
  files : ∀ filter, ofPatterns [] [raw] = .ok filter → ∀ path, filter.allowsFile path
  excluded : ∀ filter, ofPatterns [] [raw] = .ok filter →
    ∀ path, ∀ n < 2 ^ 32, ¬ filter.allowsLine path n → n = number

/-- **What a rule with a suffix does alone**, as an include and as an exclude: a
number past 32 bits stands for all lines, and for whole files. -/
structure Narrowed (raw : String) (number : Nat) (rule : PathRule) : Prop where
  included : ofPatterns [raw] [] = .ok ⟨[rule], []⟩
  excluded : ofPatterns [] [raw] = .ok ⟨[], [rule]⟩
  includedFile : ∀ path, allowsFile ⟨[rule], []⟩ path ↔ rule.covers path.display
  includedLine : ∀ path n, allowsLine ⟨[rule], []⟩ path n ↔
    (n = number ∨ 2 ^ 32 ≤ number) ∧ rule.covers path.display
  excludedFile : ∀ path, allowsFile ⟨[], [rule]⟩ path ↔
    ¬ (2 ^ 32 ≤ number ∧ rule.covers path.display)
  excludedLine : ∀ path n, allowsLine ⟨[], [rule]⟩ path n ↔
    ¬ ((n = number ∨ 2 ^ 32 ≤ number) ∧ rule.covers path.display)

theorem narrowed (hsuffix : PathRule.Suffixed raw digits) (h : PathRule.parse raw = .ok rule) :
    Narrowed raw (PathRule.denoted digits) rule where
  included := ofPatterns_eq_ok (mapM_parse_singleton h) rfl
  excluded := ofPatterns_eq_ok rfl (mapM_parse_singleton h)
  includedFile := fun _ => allowsFile_onlyInclude
  includedLine := fun _ _ => by rw [allowsLine_onlyInclude, hsuffix.inScope_some_iff h]
  excludedFile := fun _ => by rw [allowsFile_onlyExclude, hsuffix.inScope_none_iff h]
  excludedLine := fun _ _ => by rw [allowsLine_onlyExclude, hsuffix.inScope_some_iff h]

/-- **A pattern with a suffix is for one line only** if and only if its number
fits 32 bits. A greater number is that of no line, and makes the pattern one for
whole files. -/
theorem narrowed_of_suffix (hsuffix : PathRule.Suffixed raw digits)
    (h : PathRule.parse raw = .ok rule) :
    Narrowed raw (PathRule.denoted digits) rule ∧
      (OneLineOnly raw (PathRule.denoted digits) ↔ PathRule.denoted digits < 2 ^ 32) := by
  have hnarrowed := narrowed hsuffix h
  refine ⟨hnarrowed, ?_, ?_⟩
  · intro honly
    -- a rule for whole files takes the one out that its pattern spells
    have hallowed := honly.files _ hnarrowed.excluded ⟨rule.pattern⟩
    rw [hnarrowed.excludedFile, and_iff_left (PathRule.covers_pattern h)] at hallowed
    exact Nat.lt_of_not_le hallowed
  · intro hfits
    have hnot : ¬ 2 ^ 32 ≤ PathRule.denoted digits := Nat.not_le_of_lt hfits
    refine ⟨?_, ?_, ?_⟩
    · rintro filter hfilter path n - hallowed
      obtain rfl := Except.ok.inj (hnarrowed.included.symm.trans hfilter)
      exact (((hnarrowed.includedLine path n).1 hallowed).1).resolve_right hnot
    · intro filter hfilter path
      obtain rfl := Except.ok.inj (hnarrowed.excluded.symm.trans hfilter)
      exact (hnarrowed.excludedFile path).2 fun hboth => hnot hboth.1
    · rintro filter hfilter path n - hrefused
      obtain rfl := Except.ok.inj (hnarrowed.excluded.symm.trans hfilter)
      rw [hnarrowed.excludedLine, not_not] at hrefused
      exact hrefused.1.resolve_right hnot

/-- The greatest number of a line, and the first one past it. -/
theorem narrowed_lastLine :
    (∃ rule, PathRule.parse "src/A.java:4294967295" = .ok rule ∧
      PathRule.Suffixed "src/A.java:4294967295" "4294967295".toList ∧
      Narrowed "src/A.java:4294967295" 4294967295 rule ∧
      OneLineOnly "src/A.java:4294967295" 4294967295) ∧
    ∃ rule, PathRule.parse "src/A.java:4294967296" = .ok rule ∧
      PathRule.Suffixed "src/A.java:4294967296" "4294967296".toList ∧
      Narrowed "src/A.java:4294967296" 4294967296 rule ∧
      ¬ OneLineOnly "src/A.java:4294967296" 4294967296 := by
  have hlast : PathRule.Suffixed "src/A.java:4294967295" "4294967295".toList :=
    ⟨⟨"src/A.java".toList, by decide +kernel⟩, by decide +kernel,
      List.all_eq_true.1 (by decide +kernel)⟩
  have hpast : PathRule.Suffixed "src/A.java:4294967296" "4294967296".toList :=
    ⟨⟨"src/A.java".toList, by decide +kernel⟩, by decide +kernel,
      List.all_eq_true.1 (by decide +kernel)⟩
  have hlastNumber : PathRule.denoted "4294967295".toList = 4294967295 := by
    rw [← PathRule.natOfDigits_eq_denoted]
    decide +kernel
  have hpastNumber : PathRule.denoted "4294967296".toList = 4294967296 := by
    rw [← PathRule.natOfDigits_eq_denoted]
    decide +kernel
  obtain ⟨lastRule, hlastRule⟩ :=
    exists_of_isOk (by decide +kernel : (PathRule.parse "src/A.java:4294967295").isOk)
  obtain ⟨pastRule, hpastRule⟩ :=
    exists_of_isOk (by decide +kernel : (PathRule.parse "src/A.java:4294967296").isOk)
  have hone := narrowed_of_suffix hlast hlastRule
  have hall := narrowed_of_suffix hpast hpastRule
  rw [hlastNumber] at hone
  rw [hpastNumber] at hall
  exact ⟨⟨lastRule, hlastRule, hlast, hone.1, hone.2.2 (by norm_num)⟩, pastRule, hpastRule, hpast,
    hall.1, fun honly => absurd (hall.2.1 honly) (by norm_num)⟩

/-- The first number past the lines lets every line of the file in. -/
theorem not_oneLineOnly_pastLast :
    PathRule.Suffixed "A.java:4294967296" "4294967296".toList ∧
      ¬ OneLineOnly "A.java:4294967296" (PathRule.denoted "4294967296".toList) := by
  have hdigits : ∀ d ∈ "4294967296".toList, d.isDigit := List.all_eq_true.1 (by decide +kernel)
  refine ⟨⟨⟨"A.java".toList, by decide +kernel⟩, by decide +kernel, hdigits⟩, fun honly => ?_⟩
  obtain ⟨filter, hfilter⟩ :=
    exists_of_isOk (by decide +kernel : (ofPatterns ["A.java:4294967296"] []).isOk)
  have hallowed : (ofPatterns ["A.java:4294967296"] []).toOption.all
      (·.allowsLine ⟨"A.java"⟩ 1) := by decide +kernel
  rw [hfilter] at hallowed
  have hline := honly.included filter hfilter ⟨"A.java"⟩ 1 (by norm_num) hallowed
  have hnumber : PathRule.denoted "4294967296".toList ≠ 1 := by
    rw [← PathRule.natOfDigits_eq_denoted]
    decide +kernel
  exact hnumber hline.symm

end PathFilter

end Remedy
