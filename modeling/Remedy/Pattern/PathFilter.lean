import Remedy.Decimal.Power
import Remedy.Path.Basic
import Remedy.Pattern.Glob
import Remedy.Text.Blank
/-!
# Include and exclude rules

A rule is a glob or the start of a path, and a suffix such as `:12`
narrows it to one line. Without includes everything is in scope; with
them a path must match one. Where an include and an exclude both match,
the longer pattern wins, and the include wins a tie.
-/

namespace Remedy

/-- A rule: the pattern as written, without its line, and the line. -/
structure PathRule where
  glob : Glob
  pattern : String
  line : Option Nat
deriving Repr

/-- A pattern that cannot be read, in full, and why. -/
structure PatternError where
  pattern : String
  cause : GlobError
deriving DecidableEq, Repr

namespace PathRule

/-- The pattern and the digits behind its last colon, if nothing but
digits stands there. -/
def splitLine (raw : List Char) : List Char × Option (List Char) :=
  let digits := (raw.reverse.takeWhile (·.isDigit)).reverse
  match raw.reverse.drop digits.length with
  | ':' :: before => if digits.isEmpty then (raw, none) else (before.reverse, some digits)
  | _ => (raw, none)

/-- The number that digits denote. -/
def natOfDigits (digits : List Char) : Nat :=
  digits.foldl (fun n d => n * 10 + (d.toNat - '0'.toNat)) 0

/-- The line of a suffix. A number past 32 bits names no line. -/
def lineOf? (digits : List Char) : Option Nat :=
  let n := natOfDigits digits
  if n < Power.two 32 then some n else none

/-- Takes `./` off the start, as often as it stands there. -/
def dropCurrent : List Char → List Char
  | '.' :: '/' :: rest => dropCurrent rest
  | chars => chars

/-- The text of a pattern: trimmed, without `./` ahead and `/` behind, and
with `/` for `\`. -/
def clean (path : List Char) : String :=
  let trimmed := dropCurrent (Text.trim (String.ofList path)).toList
  let cut := (trimmed.reverse.dropWhile (· = '/')).reverse
  String.ofList (cut.map fun c => if c = '\\' then '/' else c)

/-- **The rule that a text stands for.** -/
def parse (raw : String) : Except PatternError PathRule :=
  let (path, digits) := splitLine raw.toList
  let pattern := clean path
  match Glob.parse pattern with
  | .ok glob => .ok ⟨glob, pattern, digits.bind lineOf?⟩
  | .error cause => .error ⟨raw, cause⟩

/-- The rule covers a path, whatever the line: the pattern is empty, matches
the path as a glob, or names the path or a directory above it. -/
def covers (rule : PathRule) (path : String) : Bool :=
  rule.pattern.isEmpty || rule.glob.matches path || path == rule.pattern ||
    (rule.pattern ++ "/").toList.isPrefixOf path.toList

/-- The size of the pattern, if the rule applies to the path and to the
line asked for. A rule for one line does not apply to a whole file. -/
def specificity? (rule : PathRule) (path : String) (line : Option Nat) : Option Nat :=
  let inScope := match rule.line, line with
    | some _, none => false
    | some want, some got => want == got
    | none, _ => true
  if inScope && rule.covers path then some rule.pattern.utf8ByteSize else none

end PathRule

/-- What a run may touch. -/
structure PathFilter where
  includes : List PathRule
  excludes : List PathRule
deriving Repr, Inhabited

namespace PathFilter

/-- **The filter of given patterns**, or the first that cannot be read. -/
def ofPatterns (includes excludes : List String) : Except PatternError PathFilter := do
  let included ← includes.mapM PathRule.parse
  let excluded ← excludes.mapM PathRule.parse
  return ⟨included, excluded⟩

/-- The decision between the longest include and the longest exclude. -/
def decide (filter : PathFilter) (included excluded : Option Nat) : Bool :=
  if filter.includes.isEmpty then excluded.isNone
  else
    match included, excluded with
    | none, _ => false
    | some i, some e => e ≤ i
    | some _, none => true

/-- The file is loaded at all. An include for one line keeps its file in
scope, an exclude for one line does not take it out. -/
def allowsFile (filter : PathFilter) (path : Path) : Bool :=
  let text := path.display
  filter.decide (filter.includes.filterMap fun r => r.specificity? text r.line).max?
    (filter.excludes.filterMap fun r => r.specificity? text none).max?

/-- A change that starts on a line, counted from one, is allowed. -/
def allowsLine (filter : PathFilter) (path : Path) (line : Nat) : Bool :=
  let text := path.display
  filter.decide (filter.includes.filterMap fun r => r.specificity? text (some line)).max?
    (filter.excludes.filterMap fun r => r.specificity? text (some line)).max?

end PathFilter

end Remedy
