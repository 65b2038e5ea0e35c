import Mathlib
import Remedy.Pattern.PathFilter
import Remedy.Proofs.Change.Choice
import Remedy.Proofs.Failing
import Remedy.Proofs.Runs
/-!
# Files and lines in scope

A filter is asked for files, which a run then loads, and for lines, on which
it then makes changes. For a file the includes for one of its lines count and
the excludes for one of its lines do not. So next to the question for a line
the longest include is no shorter and the longest exclude no longer
(`PathFilter.longest_mono`), and the decision only turns in favour of the path
(`PathFilter.decide_mono`): lines in scope are lines of files in scope
(`PathFilter.allowsFileBy_of_allowsLineBy`). Nothing is known of globs here:
what they match is a parameter of both questions.
-/

namespace Remedy

namespace PathRule

variable {chars path digits : List Char} {raw : String} {rule : PathRule} {n : Nat}

/-! ### The line that a pattern names -/

/-- **The suffix of a pattern** is all that stands behind a colon, if it is
digits and not empty. -/
theorem splitLine_eq_iff : splitLine chars = (path, some digits) ↔
    chars = path ++ ':' :: digits ∧ digits ≠ [] ∧ ∀ d ∈ digits, d.isDigit := by
  constructor
  · intro h
    -- the characters from behind: digits, and what is ahead of them
    have hparts := List.takeWhile_append_dropWhile (p := Char.isDigit) (l := chars.reverse)
    have hdigits : ∀ d ∈ chars.reverse.takeWhile Char.isDigit, d.isDigit :=
      fun d hd => List.mem_takeWhile_imp hd
    simp only [splitLine, List.length_reverse, drop_length_takeWhile] at h
    split at h
    case h_1 before hbefore =>
      split at h
      case isTrue => cases h
      case isFalse hne =>
        cases h
        refine ⟨?_, by simpa using hne, fun d hd => hdigits d (List.mem_reverse.1 hd)⟩
        rw [hbefore] at hparts
        apply List.reverse_inj.1
        rw [List.reverse_append, List.reverse_cons, List.reverse_reverse, List.reverse_reverse,
          List.append_assoc, List.singleton_append]
        exact hparts.symm
    case h_2 => cases h
  · rintro ⟨rfl, hne, hall⟩
    have htake : (path ++ ':' :: digits).reverse.takeWhile (·.isDigit) = digits.reverse := by
      rw [List.reverse_append, List.reverse_cons, List.append_assoc,
        List.takeWhile_append_of_pos fun d hd => hall d (List.mem_reverse.1 hd),
        List.singleton_append, List.takeWhile_cons_of_neg (by decide), List.append_nil]
    have hdrop : (path ++ ':' :: digits).reverse.drop digits.length = ':' :: path.reverse := by
      rw [List.reverse_append, List.reverse_cons, List.append_assoc, ← List.length_reverse,
        List.drop_left, List.singleton_append]
    simp only [splitLine, htake, List.reverse_reverse, hdrop]
    rw [if_neg (by simpa using hne)]

/-- **A pattern names a line**: its suffix is the number of the line. A number
past 32 bits is that of no line. -/
def NamesLine (raw : String) (n : Nat) : Prop :=
  ∃ path digits, raw.toList = path ++ ':' :: digits ∧ digits ≠ [] ∧ (∀ d ∈ digits, d.isDigit) ∧
    lineOf? digits = some n

/-- **A rule is made of the two parts of its pattern**: its glob of the first
and its line of the digits. -/
theorem parse_eq_ok_iff {digits? : Option (List Char)}
    (hsplit : splitLine raw.toList = (path, digits?)) : parse raw = .ok rule ↔
      Glob.parse (clean path) = .ok rule.glob ∧ rule.pattern = clean path ∧
        rule.line = digits?.bind lineOf? := by
  unfold parse
  rw [hsplit]
  dsimp only
  obtain ⟨glob, pattern, line⟩ := rule
  constructor
  · intro h
    split at h
    case h_1 hglob =>
      cases h
      exact ⟨hglob, rfl, rfl⟩
    case h_2 => cases h
  · rintro ⟨hglob, rfl, rfl⟩
    rw [hglob]

/-- **The line of a rule** is the one that its pattern names. -/
theorem line_eq_some_iff (h : parse raw = .ok rule) : rule.line = some n ↔ NamesLine raw n := by
  rcases hsplit : splitLine raw.toList with ⟨path, digits?⟩
  obtain ⟨-, -, hline⟩ := (parse_eq_ok_iff hsplit).1 h
  rw [hline, Option.bind_eq_some_iff]
  constructor
  · rintro ⟨digits, rfl, hn⟩
    obtain ⟨hraw, hne, hall⟩ := splitLine_eq_iff.1 hsplit
    exact ⟨path, digits, hraw, hne, hall, hn⟩
  · rintro ⟨path', digits, hraw, hne, hall, hn⟩
    have hsame := hsplit.symm.trans (splitLine_eq_iff.2 ⟨hraw, hne, hall⟩)
    exact ⟨digits, (Prod.mk.inj hsame).2, hn⟩

theorem not_namesLine (h : ':' ∉ raw.toList) : ¬ NamesLine raw n := by
  rintro ⟨path, digits, hraw, -⟩
  rw [hraw] at h
  exact h (List.mem_append_right _ List.mem_cons_self)

/-! ### Rules that apply -/

/-- The rule is for the line asked for, or for a whole file. -/
def inScope (rule : PathRule) (line : Option Nat) : Bool :=
  match rule.line, line with
  | some _, none => false
  | some want, some got => want == got
  | none, _ => true

/-- The rule covers a path, where a predicate tells what its glob matches. -/
def coversBy (hits : PathRule → String → Bool) (rule : PathRule) (path : String) : Bool :=
  rule.pattern.isEmpty || hits rule path || path == rule.pattern ||
    (rule.pattern ++ "/").toList.isPrefixOf path.toList

/-- The size of the pattern, if the rule applies. -/
def specificityBy? (hits : PathRule → String → Bool) (rule : PathRule) (path : String)
    (line : Option Nat) : Option Nat :=
  if rule.inScope line && rule.coversBy hits path then some rule.pattern.utf8ByteSize else none

/-- What the glob of a rule matches. -/
def globHits (rule : PathRule) (path : String) : Bool := rule.glob.matches path

theorem inScope_line (rule : PathRule) : rule.inScope rule.line := by
  unfold inScope
  cases rule.line with
  | none => rfl
  | some want => exact beq_self_eq_true want

theorem inScope_of_line_eq_none (h : rule.line = none) (line : Option Nat) :
    rule.inScope line := by
  unfold inScope
  rw [h]

/-- A rule that applies to whole files applies to each line. -/
theorem inScope_of_inScope_none (h : rule.inScope none) (line : Option Nat) :
    rule.inScope line := by
  refine inScope_of_line_eq_none ?_ line
  unfold inScope at h
  split at h
  case h_1 => cases h
  case h_2 hline => cases hline
  case h_3 hline => exact hline

end PathRule

/-! ### The two questions -/

/-- Among more numbers the greatest one is no smaller. -/
theorem max?_le_max?_of_subset {xs ys : List Nat} (h : xs ⊆ ys) : xs.max? ≤ ys.max? := by
  cases hx : xs.max? with
  | none => exact Option.none_le
  | some a =>
    have ha := h (List.max?_mem hx)
    cases hy : ys.max? with
    | none =>
      rw [List.max?_eq_none_iff.1 hy] at ha
      cases ha
    | some b => exact Option.some_le_some.2 ((List.max?_eq_some_iff.1 hy).2 a ha)

namespace PathFilter

variable {hits : PathRule → String → Bool} {filter : PathFilter} {path : Path} {n : Nat}
variable {rules : List PathRule} {asked asked' : PathRule → Option Nat}
variable {includes excludes : List String}

/-- The size of the longest of the rules that apply to a path, each of them
asked for a line. -/
def longest (hits : PathRule → String → Bool) (rules : List PathRule)
    (asked : PathRule → Option Nat) (path : Path) : Option Nat :=
  (rules.filterMap fun r => r.specificityBy? hits path.display (asked r)).max?

/-- The file is in scope, where a predicate tells what globs match. -/
def allowsFileBy (hits : PathRule → String → Bool) (filter : PathFilter) (path : Path) : Bool :=
  filter.decide (longest hits filter.includes PathRule.line path)
    (longest hits filter.excludes (fun _ => none) path)

/-- The line is in scope, where a predicate tells what globs match. -/
def allowsLineBy (hits : PathRule → String → Bool) (filter : PathFilter) (path : Path)
    (line : Nat) : Bool :=
  filter.decide (longest hits filter.includes (fun _ => some line) path)
    (longest hits filter.excludes (fun _ => some line) path)

/-- **The questions of a run** are those with what its globs match. -/
theorem allowsFile_eq (filter : PathFilter) (path : Path) :
    filter.allowsFile path = filter.allowsFileBy PathRule.globHits path := rfl

theorem allowsLine_eq (filter : PathFilter) (path : Path) (line : Nat) :
    filter.allowsLine path line = filter.allowsLineBy PathRule.globHits path line := rfl

/-- **More rules apply**, and the longest one is no shorter. -/
theorem longest_mono (h : ∀ r ∈ rules, r.inScope (asked r) → r.inScope (asked' r)) :
    longest hits rules asked path ≤ longest hits rules asked' path := by
  refine max?_le_max?_of_subset fun k hk => ?_
  obtain ⟨r, hr, hsize⟩ := List.mem_filterMap.1 hk
  refine List.mem_filterMap.2 ⟨r, hr, ?_⟩
  rw [PathRule.specificityBy?, Option.ite_none_right_eq_some, Bool.and_eq_true] at hsize
  obtain ⟨⟨hscope, hcovers⟩, hk⟩ := hsize
  rw [PathRule.specificityBy?, h r hr hscope, hcovers]
  exact hk

theorem longest_congr (h : ∀ r ∈ rules, r.inScope (asked r) = r.inScope (asked' r)) :
    longest hits rules asked path = longest hits rules asked' path := by
  refine congrArg List.max? (List.filterMap_congr fun r hr => ?_)
  rw [PathRule.specificityBy?, h r hr, ← PathRule.specificityBy?]

/-- **A path is in scope** if an include applies that is as long as each exclude
that does; without includes, if no exclude applies. -/
theorem decide_iff {i e : Option Nat} : filter.decide i e ↔
    if filter.includes.isEmpty then e = none else i ≠ none ∧ e ≤ i := by
  unfold decide
  split
  case isTrue => exact Option.isNone_iff_eq_none
  case isFalse =>
    cases i with
    | none => simp
    | some i => cases e <;> simp

/-- **A decision turns in favour of the path** with a longer include and with a
shorter exclude. -/
theorem decide_mono {i i' e e' : Option Nat} (hinclude : i ≤ i') (hexclude : e' ≤ e)
    (h : filter.decide i e) : filter.decide i' e' := by
  have htrans : ∀ {a b c : Option Nat}, a ≤ b → b ≤ c → a ≤ c := by
    rintro (_ | a) (_ | b) (_ | c) hab hbc
    case some.some.some =>
      exact Option.some_le_some.2
        ((Option.some_le_some.1 hab).trans (Option.some_le_some.1 hbc))
    all_goals first | exact Option.none_le | exact False.elim hab | exact False.elim hbc
  rw [decide_iff] at h ⊢
  split
  case isTrue hall =>
    rw [if_pos hall] at h
    exact Option.le_none.1 (h ▸ hexclude)
  case isFalse hsome =>
    rw [if_neg hsome] at h
    exact ⟨fun hnone => h.1 (Option.le_none.1 (hnone ▸ hinclude)),
      htrans hexclude (htrans h.2 hinclude)⟩

/-- **A line in scope is one of a file in scope.** -/
theorem allowsFileBy_of_allowsLineBy (h : filter.allowsLineBy hits path n) :
    filter.allowsFileBy hits path := by
  -- for its own line each include counts, and an exclude of whole files for every line
  have hincludes : longest hits filter.includes (fun _ => some n) path ≤
      longest hits filter.includes PathRule.line path :=
    longest_mono fun r _ _ => r.inScope_line
  have hexcludes : longest hits filter.excludes (fun _ => none) path ≤
      longest hits filter.excludes (fun _ => some n) path :=
    longest_mono fun _ _ hscope => PathRule.inScope_of_inScope_none hscope _
  exact decide_mono hincludes hexcludes h

/-- **Without rules for a line** each line is in scope with its file. -/
theorem allowsLineBy_eq_of_lineless
    (h : ∀ r ∈ filter.includes ++ filter.excludes, r.line = none) :
    filter.allowsLineBy hits path n = filter.allowsFileBy hits path := by
  obtain ⟨hincludes, hexcludes⟩ := List.forall_mem_append.1 h
  have hsame : ∀ {r : PathRule} {l l' : Option Nat}, r.line = none →
      r.inScope l = r.inScope l' := by
    intro r l l' hline
    rw [PathRule.inScope_of_line_eq_none hline, PathRule.inScope_of_line_eq_none hline]
  rw [allowsLineBy, allowsFileBy, longest_congr fun r hr => hsame (hincludes r hr),
    longest_congr fun r hr => hsame (hexcludes r hr)]

/-- The rules of a filter are made of its patterns. -/
theorem exists_pattern (h : ofPatterns includes excludes = .ok filter) :
    ∀ r ∈ filter.includes ++ filter.excludes,
      ∃ raw ∈ includes ++ excludes, PathRule.parse raw = .ok r := by
  obtain ⟨included, hincluded, h⟩ := exists_of_bind_eq_ok h
  obtain ⟨excluded, hexcluded, h⟩ := exists_of_bind_eq_ok h
  cases h
  refine List.forall_mem_append.2 ⟨fun r hr => ?_, fun r hr => ?_⟩
  · obtain ⟨raw, hraw, hparse⟩ := exists_mem_of_mapM_eq_ok hincluded r hr
    exact ⟨raw, List.mem_append_left _ hraw, hparse⟩
  · obtain ⟨raw, hraw, hparse⟩ := exists_mem_of_mapM_eq_ok hexcluded r hr
    exact ⟨raw, List.mem_append_right _ hraw, hparse⟩

/-! ### What a run does -/

/-- **Changes are made in files in scope only.** -/
theorem changes_eq_nil_of_not_allowsFile {ctx : PlanContext}
    (h : ¬ ctx.filter.allowsFile ctx.unit.path) (findings : List Finding) :
    (FileResult.ofFindings ctx findings).changes = [] := by
  cases hparsed : ctx.unit.parseError? with
  | some error =>
    rw [FileResult.ofFindings, FileResult.ofFindingsBy_of_failed _ hparsed]
    rfl
  | none =>
    rw [FileResult.ofFindings, FileResult.ofFindingsBy_of_parsed _ hparsed]
    refine List.eq_nil_iff_forall_not_mem.2 fun change hchange => h ?_
    obtain ⟨m, hm, -⟩ := Execution.mem_changes.1 hchange
    obtain ⟨-, -, hfound, -⟩ := Plan.exists_contest ctx findings
    obtain ⟨c, -, hpasses, -⟩ := Plan.mem_found.1 (hfound hm)
    exact allowsFileBy_of_allowsLineBy hpasses.allowed

/-- **Files and lines in scope agree** under the filter of given patterns. -/
structure Consistent (includes excludes : List String) (filter : PathFilter) : Prop where
  file : ∀ path, filter.allowsFile path = filter.allowsFileBy PathRule.globHits path
  line : ∀ path n, filter.allowsLine path n = filter.allowsLineBy PathRule.globHits path n
  fileOfLine : ∀ hits path n, filter.allowsLineBy hits path n → filter.allowsFileBy hits path
  lineless : (∀ raw ∈ includes ++ excludes, ∀ n, ¬ PathRule.NamesLine raw n) →
    ∀ hits path n, filter.allowsLineBy hits path n = filter.allowsFileBy hits path
  /-- a file that is not loaded would not be changed either -/
  unchanged : ∀ ctx findings, ctx.filter = filter → ¬ filter.allowsFile ctx.unit.path →
    (FileResult.ofFindings ctx findings).changes = []

theorem consistent_ofPatterns (h : ofPatterns includes excludes = .ok filter) :
    Consistent includes excludes filter where
  file := filter.allowsFile_eq
  line := filter.allowsLine_eq
  fileOfLine := fun _ _ _ => allowsFileBy_of_allowsLineBy
  lineless := by
    intro hnone hits path n
    refine allowsLineBy_eq_of_lineless fun r hr => ?_
    obtain ⟨raw, hraw, hparse⟩ := exists_pattern h r hr
    refine Option.eq_none_iff_forall_ne_some.2 fun n hline => ?_
    exact hnone raw hraw n ((PathRule.line_eq_some_iff hparse).1 hline)
  unchanged := by
    rintro ctx findings rfl hnot
    exact changes_eq_nil_of_not_allowsFile hnot findings

/-- One line of a file, and a directory without another one in it. -/
theorem consistent_lineAndDirectory :
    (∃ filter, ofPatterns ["src/A.java:10"] ["src/A.java:4"] = .ok filter ∧
      filter.allowsFile ⟨"src/A.java"⟩ ∧ filter.allowsLine ⟨"src/A.java"⟩ 10 ∧
      ¬ filter.allowsLine ⟨"src/A.java"⟩ 4 ∧
      Consistent ["src/A.java:10"] ["src/A.java:4"] filter) ∧
    ∃ filter, ofPatterns ["src"] ["src/test/"] = .ok filter ∧
      filter.allowsFile ⟨"src/A.java"⟩ ∧ ¬ filter.allowsFile ⟨"src/test/A.java"⟩ ∧
      ∀ hits path n, filter.allowsLineBy hits path n = filter.allowsFileBy hits path := by
  have hlineless : ∀ raw ∈ ["src"] ++ ["src/test/"], ∀ n, ¬ PathRule.NamesLine raw n := by
    intro raw hraw n
    refine PathRule.not_namesLine ?_
    revert raw
    decide
  exact ⟨⟨_, rfl, by decide, by decide, by decide, consistent_ofPatterns rfl⟩, _, rfl, by decide,
    by decide, (consistent_ofPatterns rfl).lineless hlineless⟩

end PathFilter

end Remedy
