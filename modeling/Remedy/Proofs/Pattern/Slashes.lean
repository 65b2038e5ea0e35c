import Mathlib
import Remedy.Proofs.Pattern.Readable
import Remedy.Proofs.Pattern.Suffixes
import Remedy.Proofs.Text.Positions
/-!
# Slashes in patterns

A pattern may be written with `\` for `/`, and each `\` is made a `/` in the end;
but `./` is taken off its start and `/` off its end before. So a `\` that stands
where one of these would stays as a `/` in the rule, which then is longer than
the rule of the pattern with slashes and answers differently somewhere
(`PathFilter.interchangeable_slashed`). Everywhere else the two patterns make
one rule. Whether a pattern can be read does not depend on its slashes at all.
-/

namespace Remedy

namespace PathRule

variable {c d : Char} {cs ds : List Char} {raw : String} {rule : PathRule}

/-- A slash for a character that may be a backslash. -/
def slash (c : Char) : Char := if c = '\\' then '/' else c

/-- **The pattern with `/` for each `\`.** -/
def slashed (raw : String) : String := String.ofList (raw.toList.map slash)

/-- What a pattern says without its line, the blanks around it and each `./`
ahead of it. -/
def core (raw : String) : List Char :=
  dropCurrent (Text.trim (String.ofList (splitLine raw.toList).1)).toList

/-- The character is a slash. -/
def isSlash (c : Char) : Bool := c = '/'

/-- A pattern without slashes at its end, and with `/` for each `\`. -/
def cut (cs : List Char) : List Char := (cs.rdropWhile isSlash).map slash

/-- **A pattern has no `\` at its ends**: none that `./` would be taken off with,
and none that would be taken off with the slashes behind it. -/
structure Tidy (raw : String) : Prop where
  start : ¬ ['.', '\\'] <+: core raw
  stop : ((core raw).rdropWhile isSlash).getLast? ≠ some '\\'

/-! ### Slashes for backslashes -/

theorem slash_eq_iff (hd : d ≠ '/') (hd' : d ≠ '\\') : slash c = d ↔ c = d := by
  rw [slash]
  split
  case isTrue heq => exact iff_of_false (Ne.symm hd) fun h => hd' (h.symm.trans heq)
  case isFalse => rfl

theorem slash_ne (c : Char) : slash c ≠ '\\' := by
  rw [slash]
  split
  case isTrue => decide
  case isFalse hne => exact hne

theorem not_mem_map_slash (cs : List Char) : '\\' ∉ cs.map slash := by
  intro hmem
  obtain ⟨c, -, hc⟩ := List.mem_map.1 hmem
  exact slash_ne c hc

theorem map_slash_of_not_mem (h : '\\' ∉ cs) : cs.map slash = cs := by
  have hsame : ∀ c ∈ cs, slash c = c := by
    intro c hc
    rw [slash, if_neg fun heq : c = '\\' => h (heq ▸ hc)]
  rw [List.map_congr_left hsame, List.map_id']

theorem isDigit_slash (c : Char) : (slash c).isDigit = c.isDigit := by
  rw [slash]
  split
  case isTrue heq => rw [heq]; decide
  case isFalse => rfl

theorem isBlank_slash (c : Char) : isBlank (slash c) = isBlank c := by
  rw [slash]
  split
  case isTrue heq => rw [heq]; decide
  case isFalse => rfl

theorem toList_slashed (raw : String) : (slashed raw).toList = raw.toList.map slash :=
  String.toList_ofList

/-! ### The parts of a pattern -/

theorem map_slash_of_digits (h : ∀ d ∈ cs, d.isDigit) : cs.map slash = cs :=
  map_slash_of_not_mem fun hmem => absurd (h _ hmem) (by decide)

/-- A pattern with a suffix and its path with slashes have one suffix. -/
theorem splitLine_map_slash_eq_iff {path digits : List Char} :
    splitLine (cs.map slash) = (path, some digits) ↔
      ∃ path', splitLine cs = (path', some digits) ∧ path = path'.map slash := by
  simp only [splitLine_eq_iff]
  constructor
  · rintro ⟨hcs, hne, hdigits⟩
    obtain ⟨path', behind, rfl, rfl, hbehind⟩ := List.map_eq_append_iff.1 hcs
    obtain ⟨c, digits', rfl, hcolon, rfl⟩ := List.map_eq_cons_iff.1 hbehind
    have hdigits' : ∀ d ∈ digits', d.isDigit := fun d hd =>
      isDigit_slash d ▸ hdigits _ (List.mem_map_of_mem hd)
    rw [map_slash_of_digits hdigits'] at hne ⊢
    obtain rfl : c = ':' := (slash_eq_iff (by decide) (by decide)).1 hcolon
    exact ⟨path', ⟨rfl, hne, hdigits'⟩, rfl⟩
  · rintro ⟨path', ⟨rfl, hne, hdigits⟩, rfl⟩
    refine ⟨?_, hne, hdigits⟩
    rw [List.map_append, List.map_cons, map_slash_of_digits hdigits]
    rfl

/-- Without a suffix all of a pattern is its path. -/
theorem splitLine_of_none (h : (splitLine cs).2 = none) : splitLine cs = (cs, none) := by
  unfold splitLine at h ⊢
  dsimp only at h ⊢
  split at h
  case h_1 =>
    split at h
    case isTrue hempty => rw [if_pos hempty]
    case isFalse => cases h
  case h_2 => rfl

/-- **The suffix stays where it is.** -/
theorem splitLine_map_slash (cs : List Char) :
    splitLine (cs.map slash) = ((splitLine cs).1.map slash, (splitLine cs).2) := by
  cases hsplit : (splitLine cs).2 with
  | some digits =>
    exact splitLine_map_slash_eq_iff.2 ⟨(splitLine cs).1, Prod.ext rfl hsplit, rfl⟩
  | none =>
    have hnone : (splitLine (cs.map slash)).2 = none := by
      refine Option.eq_none_iff_forall_ne_some.2 fun digits hdigits => ?_
      obtain ⟨path, hpath, -⟩ := splitLine_map_slash_eq_iff.1 (Prod.ext rfl hdigits)
      rw [hpath] at hsplit
      cases hsplit
    rw [splitLine_of_none hsplit, splitLine_of_none hnone]

theorem rdropWhile_map {p : Char → Bool} {f : Char → Char} (cs : List Char) :
    (cs.map f).rdropWhile p = (cs.rdropWhile (p ∘ f)).map f := by
  rw [List.rdropWhile, List.rdropWhile, ← List.map_reverse, List.dropWhile_map, List.map_reverse]

theorem trim_map_slash (cs : List Char) : (Text.trim (String.ofList (cs.map slash))).toList =
    (Text.trim (String.ofList cs)).toList.map slash := by
  have hblank : isBlank ∘ slash = isBlank := funext isBlank_slash
  simp only [Text.trim, Text.trimWith, Text.trimEndWith, Text.trimStartWith, String.toList_ofList,
    List.dropWhile_map, ← List.map_reverse, hblank]

theorem dropCurrent_map_slash (cs : List Char) :
    dropCurrent (cs.map slash) = dropCurrent ((dropCurrent cs).map slash) := by
  induction cs using dropCurrent.induct with
  | case1 rest ih => exact ih
  | case2 cs hcs => rw [dropCurrent.eq_2 cs hcs]

theorem core_slashed (raw : String) : core (slashed raw) = dropCurrent ((core raw).map slash) := by
  rw [core, toList_slashed, splitLine_map_slash, trim_map_slash, dropCurrent_map_slash, core]

theorem clean_eq (raw : String) :
    clean (splitLine raw.toList).1 = String.ofList (cut (core raw)) := rfl

/-! ### The ends of a pattern -/

theorem dropCurrent_suffix (cs : List Char) : dropCurrent cs <:+ cs := by
  induction cs using dropCurrent.induct with
  | case1 rest ih => exact ih.trans ((List.suffix_cons _ _).trans (List.suffix_cons _ _))
  | case2 cs hcs =>
    rw [dropCurrent.eq_2 cs hcs]

/-- No `./` is left ahead. -/
theorem not_prefix_dropCurrent (cs : List Char) : ¬ ['.', '/'] <+: dropCurrent cs := by
  induction cs using dropCurrent.induct with
  | case1 rest ih => exact ih
  | case2 cs hcs =>
    rw [dropCurrent.eq_2 cs hcs]
    rintro ⟨rest, rfl⟩
    exact hcs rest rfl

theorem dropCurrent_eq_self (h : ¬ ['.', '/'] <+: cs) : dropCurrent cs = cs :=
  dropCurrent.eq_2 cs fun rest heq => h ⟨rest, heq.symm⟩

/-- Characters come off the end of a text if they do of what it ends in. -/
theorem rdropWhile_suffix {p : Char → Bool} (h : cs <:+ ds) :
    cs.rdropWhile p <:+ ds.rdropWhile p := by
  obtain ⟨ahead, rfl⟩ := h
  rw [List.rdropWhile, List.rdropWhile, List.reverse_append, List.dropWhile_append]
  split
  case isTrue hempty =>
    rw [List.isEmpty_iff.1 hempty]
    exact List.nil_suffix
  case isFalse =>
    rw [List.reverse_append]
    exact List.suffix_append _ _

/-- No more come off than stand behind a start that stays. -/
theorem prefix_rdropWhile {p : Char → Bool} (h : cs <+: ds) (hstays : cs.rdropWhile p = cs) :
    cs <+: ds.rdropWhile p := by
  obtain ⟨behind, rfl⟩ := h
  rw [List.rdropWhile, List.reverse_append, List.dropWhile_append]
  split
  case isTrue =>
    rw [← List.rdropWhile, hstays]
  case isFalse =>
    rw [List.reverse_append, List.reverse_reverse]
    exact List.prefix_append _ _

/-- What a test takes off, a wider one takes off too. -/
theorem rdropWhile_rdropWhile {p q : Char → Bool} (h : ∀ c, p c → q c) (cs : List Char) :
    (cs.rdropWhile p).rdropWhile q = cs.rdropWhile q := by
  induction cs using List.reverseRecOn with
  | nil => rfl
  | append_singleton cs c ih =>
    by_cases hc : p c
    · rw [List.rdropWhile_concat_pos _ _ _ hc, List.rdropWhile_concat_pos _ _ _ (h c hc), ih]
    · rw [List.rdropWhile_concat_neg _ _ _ hc]

theorem not_of_getLast?_rdropWhile {p : Char → Bool}
    (h : (cs.rdropWhile p).getLast? = some c) : ¬ p c := by
  obtain ⟨ahead, hcs⟩ := List.getLast?_eq_some_iff.1 h
  have hnot := List.rdropWhile_last_not p cs (by simp [hcs])
  simpa only [hcs, List.getLast_concat] using hnot

theorem isSlash_slash (c : Char) (h : isSlash c) : (isSlash ∘ slash) c := by
  rw [of_decide_eq_true h]
  decide

theorem not_mem_dropCurrent (cs : List Char) : '\\' ∉ dropCurrent (cs.map slash) := fun hmem =>
  not_mem_map_slash cs ((dropCurrent_suffix _).subset hmem)

/-- A pattern with slashes says what is left of it, -/
theorem cut_dropCurrent (cs : List Char) :
    cut (dropCurrent (cs.map slash)) = (dropCurrent (cs.map slash)).rdropWhile isSlash :=
  map_slash_of_not_mem fun hmem =>
    not_mem_dropCurrent cs ((List.rdropWhile_prefix _ _).subset hmem)

/-- **and that is a part of what it says with `\`.** -/
theorem cut_slashed_sublist (cs : List Char) :
    (cut (dropCurrent (cs.map slash))).Sublist (cut cs) := by
  have hprefix : (cs.map slash).rdropWhile isSlash <+: cut cs := by
    rw [rdropWhile_map, cut, ← rdropWhile_rdropWhile isSlash_slash]
    exact (List.rdropWhile_prefix _ _).map slash
  rw [cut_dropCurrent]
  exact (rdropWhile_suffix (dropCurrent_suffix _)).sublist.trans hprefix.sublist

/-- **The two say the same** if no `\` is at the ends. -/
theorem cut_slashed_eq_iff (h : ¬ ['.', '/'] <+: cs) :
    cut (dropCurrent (cs.map slash)) = cut cs ↔
      ¬ ['.', '\\'] <+: cs ∧ (cs.rdropWhile isSlash).getLast? ≠ some '\\' := by
  rw [cut_dropCurrent]
  constructor
  · intro heq
    refine ⟨fun hstart => ?_, fun hstop => ?_⟩
    · -- behind the `.` there is a `/` that was left, while all of them were taken off
      have hleft : ['.', '/'] <+: cut cs := (prefix_rdropWhile hstart (by decide)).map slash
      rw [← heq] at hleft
      exact not_prefix_dropCurrent _ (hleft.trans (List.rdropWhile_prefix _ _))
    · have hlast : (cut cs).getLast? = some '/' := by
        rw [cut, List.getLast?_map, hstop]
        decide
      rw [← heq] at hlast
      exact not_of_getLast?_rdropWhile hlast (by decide)
  · rintro ⟨hstart, hstop⟩
    have hnone : ¬ ['.', '/'] <+: cs.map slash := by
      rintro ⟨rest, hrest⟩
      obtain ⟨a, cs, rfl, ha, hcs⟩ := List.map_eq_cons_iff.1 hrest.symm
      obtain ⟨b, cs, rfl, hb, -⟩ := List.map_eq_cons_iff.1 hcs
      rw [slash_eq_iff (by decide) (by decide)] at ha
      subst ha
      by_cases hback : b = '\\'
      · exact hstart ⟨cs, by rw [hback]; rfl⟩
      · rw [slash, if_neg hback] at hb
        exact h ⟨cs, by rw [hb]; rfl⟩
    rw [dropCurrent_eq_self hnone, rdropWhile_map, cut,
      ← rdropWhile_rdropWhile isSlash_slash]
    refine congrArg (List.map slash) (List.rdropWhile_eq_self_iff.2 fun hne hlast => ?_)
    have hget := List.getLast?_eq_some_getLast hne
    have hslash := not_of_getLast?_rdropWhile hget
    rw [hget, Ne, Option.some.injEq] at hstop
    rw [Function.comp_apply, slash, if_neg hstop] at hlast
    exact hslash hlast

/-! ### Patterns that can be read -/

/-- Slashes that are taken off the end decide nothing, -/
theorem readable_cut : Glob.Readable true (cut cs) ↔ Glob.Readable true (cs.map slash) := by
  induction cs using List.reverseRecOn with
  | nil => rfl
  | append_singleton cs c ih =>
    by_cases hc : isSlash c
    · rw [cut, List.rdropWhile_concat_pos _ _ _ hc, ← cut, ih, List.map_append, List.map_singleton,
        of_decide_eq_true hc]
      exact Glob.readable_slash.symm
    · rw [cut, List.rdropWhile_concat_neg _ _ _ hc]

/-- and neither does what is taken off the start. -/
theorem readable_dropCurrent :
    Glob.Readable true (dropCurrent cs) ↔ Glob.Readable true cs := by
  induction cs using dropCurrent.induct with
  | case1 rest ih => rw [Glob.readable_current rfl]; exact ih
  | case2 cs hcs => rw [dropCurrent.eq_2 cs hcs]

theorem isOk_parse_iff : (parse raw).isOk ↔ Glob.Readable true ((core raw).map slash) := by
  have hglob : (parse raw).isOk = (Glob.parse (clean (splitLine raw.toList).1)).isOk := by
    unfold parse
    dsimp only
    split
    case h_1 hok => rw [hok]; rfl
    case h_2 herror => rw [herror]; rfl
  rw [hglob, Glob.isOk_parse_iff, clean_eq, String.toList_ofList, readable_cut]

/-- **A pattern can be read** if and only if it can with slashes. -/
theorem isOk_parse_slashed (raw : String) : (parse (slashed raw)).isOk ↔ (parse raw).isOk := by
  rw [isOk_parse_iff, isOk_parse_iff, core_slashed, map_slash_of_not_mem (not_mem_dropCurrent _),
    readable_dropCurrent]

/-- What a rule is made of. -/
theorem parts_of_parse (h : parse raw = .ok rule) :
    Glob.parse rule.pattern = .ok rule.glob ∧ rule.pattern = String.ofList (cut (core raw)) ∧
      rule.line = (splitLine raw.toList).2.bind lineOf? := by
  obtain ⟨hglob, hpattern, hline⟩ := (parse_eq_ok_iff (Prod.ext rfl rfl)).1 h
  exact ⟨hpattern ▸ hglob, hpattern, hline⟩

/-- **The rule of a pattern with slashes** is for the same line, and says a part
of what the rule with `\` says. -/
structure Shortened (rule rule' : PathRule) : Prop where
  line : rule'.line = rule.line
  pattern : rule'.pattern.toList.Sublist rule.pattern.toList
  eq_of_pattern : rule'.pattern = rule.pattern → rule' = rule

theorem exists_shortened (h : parse raw = .ok rule) :
    ∃ rule', parse (slashed raw) = .ok rule' ∧ Shortened rule rule' ∧
      (rule'.pattern = rule.pattern ↔ Tidy raw) := by
  obtain ⟨rule', h'⟩ := exists_of_isOk ((isOk_parse_slashed raw).2 (by rw [h]; rfl))
  obtain ⟨hglob, hpattern, hline⟩ := parts_of_parse h
  obtain ⟨hglob', hpattern', hline'⟩ := parts_of_parse h'
  have hsameLine : rule'.line = rule.line := by
    rw [hline, hline', toList_slashed, splitLine_map_slash]
  refine ⟨rule', h', ⟨hsameLine, ?_, fun hsame => ?_⟩, ?_⟩
  · rw [hpattern, hpattern', core_slashed, String.toList_ofList, String.toList_ofList]
    exact cut_slashed_sublist _
  · rw [hsame, hglob] at hglob'
    obtain ⟨glob, pattern, line⟩ := rule
    obtain ⟨glob', pattern', line'⟩ := rule'
    simp only at hsame hsameLine hglob'
    rw [hsame, hsameLine, ← Except.ok.inj hglob']
  · have htidy := @cut_slashed_eq_iff (core raw) (not_prefix_dropCurrent _)
    rw [hpattern, hpattern', core_slashed, String.ofList_inj, htidy]
    exact ⟨fun ⟨hstart, hstop⟩ => ⟨hstart, hstop⟩, fun ⟨hstart, hstop⟩ => ⟨hstart, hstop⟩⟩

end PathRule

namespace PathFilter

variable {raw raw' : String} {rule rule' : PathRule}
variable {includes excludes : List String}

/-- **Two filters answer alike**, or neither of them can be had. -/
inductive AnswerAlike : Except PatternError PathFilter → Except PatternError PathFilter → Prop
  | accepted {f g : PathFilter} (files : ∀ path, f.allowsFile path = g.allowsFile path)
      (lines : ∀ path n, f.allowsLine path n = g.allowsLine path n) : AnswerAlike (.ok f) (.ok g)
  | refused {e e' : PatternError} : AnswerAlike (.error e) (.error e')

theorem AnswerAlike.refl (f : Except PatternError PathFilter) : AnswerAlike f f := by
  cases f with
  | error e => exact .refused
  | ok f => exact .accepted (fun _ => rfl) fun _ _ => rfl

theorem AnswerAlike.map_allowsFile {f g : Except PatternError PathFilter}
    (halike : AnswerAlike f g) (path : Path) :
    f.toOption.map (·.allowsFile path) = g.toOption.map (·.allowsFile path) := by
  cases halike with
  | accepted hfiles _ => exact congrArg some (hfiles path)
  | refused => rfl

theorem answerAlike_of_failed {f g : Except PatternError PathFilter} (hf : ¬ f.isOk)
    (hg : ¬ g.isOk) : AnswerAlike f g := by
  cases f with
  | ok f => exact absurd rfl hf
  | error e =>
    cases g with
    | ok g => exact absurd rfl hg
    | error e' => exact .refused

/-- **A pattern does as well as another one**, as an include and as an exclude,
wherever it stands among others. -/
def Interchangeable (raw raw' : String) : Prop :=
  ∀ ahead behind others,
    AnswerAlike (ofPatterns (ahead ++ raw :: behind) others)
      (ofPatterns (ahead ++ raw' :: behind) others) ∧
    AnswerAlike (ofPatterns others (ahead ++ raw :: behind))
      (ofPatterns others (ahead ++ raw' :: behind))

theorem isOk_ofPatterns_iff : (ofPatterns includes excludes).isOk ↔
    (∀ raw ∈ includes, (PathRule.parse raw).isOk) ∧
      ∀ raw ∈ excludes, (PathRule.parse raw).isOk := by
  rw [← isOk_mapM_iff, ← isOk_mapM_iff, ofPatterns]
  cases includes.mapM PathRule.parse with
  | error e => exact iff_of_false Bool.false_ne_true fun h => absurd h.1 Bool.false_ne_true
  | ok included =>
    cases excludes.mapM PathRule.parse <;>
      simp [Except.isOk, Except.toBool, bind, Except.bind, pure, Except.pure]

/-- Patterns that cannot be read leave no filter. -/
theorem interchangeable_of_failed (h : ¬ (PathRule.parse raw).isOk)
    (h' : ¬ (PathRule.parse raw').isOk) : Interchangeable raw raw' := by
  intro ahead behind others
  have hmem : ∀ raw : String, raw ∈ ahead ++ raw :: behind := fun _ =>
    List.mem_append_right _ List.mem_cons_self
  constructor
  · exact answerAlike_of_failed (fun hok => h ((isOk_ofPatterns_iff.1 hok).1 raw (hmem raw)))
      fun hok => h' ((isOk_ofPatterns_iff.1 hok).1 raw' (hmem raw'))
  · exact answerAlike_of_failed (fun hok => h ((isOk_ofPatterns_iff.1 hok).2 raw (hmem raw)))
      fun hok => h' ((isOk_ofPatterns_iff.1 hok).2 raw' (hmem raw'))

/-- Patterns of one rule do alike. -/
theorem interchangeable_of_parse_eq (h : PathRule.parse raw = PathRule.parse raw') :
    Interchangeable raw raw' := by
  intro ahead behind others
  simp only [ofPatterns, List.mapM_append, List.mapM_cons, h]
  exact ⟨.refl _, .refl _⟩

/-- **One include against one exclude**, of which the longer one wins. -/
theorem allowsLine_alone {other : PathRule} {path : Path} {n : Nat} :
    allowsLine ⟨[rule], [other]⟩ path n ↔
    rule.specificityBy? PathRule.globHits path.display (some n) ≠ none ∧
      other.specificityBy? PathRule.globHits path.display (some n) ≤
        rule.specificityBy? PathRule.globHits path.display (some n) := by
  have hsome : ([rule] : List PathRule).isEmpty ≠ true := Bool.false_ne_true
  rw [allowsLine_eq, allowsLineBy, decide_iff, longest_singleton, longest_singleton, if_neg hsome]

theorem Interchangeable.allowsLine (halike : Interchangeable raw raw')
    (h : PathRule.parse raw = .ok rule) (h' : PathRule.parse raw' = .ok rule')
    {others : List String} {excluded : List PathRule}
    (hothers : others.mapM PathRule.parse = .ok excluded) (path : Path) (n : Nat) :
    PathFilter.allowsLine ⟨[rule], excluded⟩ path n =
      PathFilter.allowsLine ⟨[rule'], excluded⟩ path n := by
  have hsame : AnswerAlike (ofPatterns [raw] others) (ofPatterns [raw'] others) :=
    (halike [] [] others).1
  rw [ofPatterns_eq_ok (mapM_parse_singleton h) hothers,
    ofPatterns_eq_ok (mapM_parse_singleton h') hothers] at hsame
  cases hsame with
  | accepted _ hlines => exact hlines path n

/-- **A shorter rule answers differently somewhere**: on the path that it spells,
either the longer one does not apply, or it wins as an exclude against the shorter
one and not against itself. -/
theorem not_interchangeable_of_shorter (h : PathRule.parse raw = .ok rule)
    (h' : PathRule.parse raw' = .ok rule') (hline : rule'.line = rule.line)
    (hshorter : rule'.pattern.utf8ByteSize < rule.pattern.utf8ByteSize) :
    ¬ Interchangeable raw raw' := by
  intro halike
  have hscope : rule.inScope (some (rule.line.getD 0)) := by
    rw [PathRule.inScope_some_iff]
    cases rule.line <;> simp
  have hscope' : rule'.inScope (some (rule.line.getD 0)) := by
    rw [PathRule.inScope_some_iff, hline]
    cases rule.line <;> simp
  have hcovers' := PathRule.covers_pattern h'
  by_cases hcovers : rule.covers (Path.display ⟨rule'.pattern⟩)
  · have hanswers := halike.allowsLine h h' (mapM_parse_singleton h) ⟨rule'.pattern⟩
      (rule.line.getD 0)
    rw [Bool.eq_iff_iff, allowsLine_alone, allowsLine_alone,
      specificityBy?_of_applies hscope hcovers, specificityBy?_of_applies hscope' hcovers',
      Option.some_le_some, Option.some_le_some] at hanswers
    exact absurd (hanswers.1 ⟨nofun, le_rfl⟩).2 (Nat.not_le_of_lt hshorter)
  · have hnone : ([] : List String).mapM PathRule.parse = .ok [] := rfl
    have hanswers := halike.allowsLine h h' hnone ⟨rule'.pattern⟩ (rule.line.getD 0)
    rw [Bool.eq_iff_iff, allowsLine_onlyInclude, allowsLine_onlyInclude] at hanswers
    exact hcovers (hanswers.2 ⟨hscope', hcovers'⟩).2

/-- **Which patterns may be written with `\` for `/`**: a pattern can be read if and
only if it can with slashes, and then it does as well with them if and only if it
has no `\` at its ends. -/
theorem interchangeable_slashed (raw : String) :
    ((PathRule.parse raw).isOk ↔ (PathRule.parse (PathRule.slashed raw)).isOk) ∧
      (Interchangeable raw (PathRule.slashed raw) ↔
        ((PathRule.parse raw).isOk → PathRule.Tidy raw)) := by
  refine ⟨(PathRule.isOk_parse_slashed raw).symm, ?_⟩
  cases h : PathRule.parse raw with
  | error e =>
    have hfailed : ¬ (PathRule.parse raw).isOk := by rw [h]; exact Bool.false_ne_true
    exact iff_of_true
      (interchangeable_of_failed hfailed (mt (PathRule.isOk_parse_slashed raw).1 hfailed))
      fun hok => absurd hok Bool.false_ne_true
  | ok rule =>
    obtain ⟨rule', h', hshortened, htidy⟩ := PathRule.exists_shortened h
    rw [forall_prop_of_true (by rfl : (Except.ok rule : Except PatternError PathRule).isOk),
      ← htidy]
    constructor
    · intro halike
      by_contra hne
      refine not_interchangeable_of_shorter h h' hshortened.line ?_ halike
      rw [Text.utf8ByteSize_eq, Text.utf8ByteSize_eq]
      exact Text.byteSize_lt_of_sublist hshortened.pattern fun heq => hne (String.toList_inj.1 heq)
    · intro hsame
      exact interchangeable_of_parse_eq (by rw [h, h', hshortened.eq_of_pattern hsame])

/-- A `\` behind the `.` at the start stays, and the directory is not found. -/
theorem not_interchangeable_currentSrc :
    ¬ Interchangeable ".\\src" (PathRule.slashed ".\\src") := by
  intro halike
  have hslashed : PathRule.slashed ".\\src" = "./src" := by decide +kernel
  rw [hslashed] at halike
  have hfiles := (halike [] [] []).1.map_allowsFile ⟨"src/A.java"⟩
  exact absurd hfiles (by decide +kernel)

end PathFilter

end Remedy
