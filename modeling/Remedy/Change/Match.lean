import Remedy.Codemod.Basic
import Remedy.Findings.Finding
/-!
# Matches and skips

A match binds a codemod to a site, for findings or for none. Whatever is
turned away on the way to a change is recorded as a skip, with its reason.
-/

namespace Remedy

/-- Why a match or a finding came to nothing. -/
inductive SkipReason where
  /-- It lost an overlap against a match of higher rank. -/
  | conflict
  /-- A type that the codemod depends on could not be resolved. -/
  | resolutionGap
  /-- The codemod of the rule found nothing to rewrite there. -/
  | noTarget
  /-- No codemod takes care of the rule. -/
  | noCodemod
  /-- A pattern keeps the line out of the run. -/
  | excluded
  /-- The file could not be parsed. -/
  | parseFailed
  /-- The new text equals the old one. -/
  | noChange
deriving DecidableEq, Repr

namespace SkipReason

/-- The name of a reason. -/
def name : SkipReason → String
  | .conflict => "conflict"
  | .resolutionGap => "resolution-gap"
  | .noTarget => "no-target"
  | .noCodemod => "no-codemod"
  | .excluded => "excluded"
  | .parseFailed => "parse-failed"
  | .noChange => "no-change"

/-- The place of a reason in the order of skips. -/
def rank : SkipReason → Nat
  | .conflict => 0
  | .resolutionGap => 1
  | .noTarget => 2
  | .noCodemod => 3
  | .excluded => 4
  | .parseFailed => 5
  | .noChange => 6

end SkipReason

/-- A codemod bound to a site. The codemod is told by its place in the
catalog; the ids are those of the findings it is for, in order. -/
structure Match where
  codemod : Nat
  codemodId : String
  priority : Int
  site : Site
  findings : List String
deriving DecidableEq, Repr

/-- The order in which matches stand in a file. -/
def Match.order (a b : Match) : Ordering :=
  (a.site.span.order b.site.span).then (compare a.codemod b.codemod)

/-- A match or a finding that came to nothing. -/
structure Skip where
  reason : SkipReason
  codemod : Option String
  rule : Option String
  span : Option Span
  start : Option Position
  findings : List String
  detail : Option String
deriving DecidableEq, Repr

namespace Skip

/-- The skip of a finding. -/
def ofFinding (finding : Finding) (reason : SkipReason) (codemod detail : Option String) : Skip :=
  ⟨reason, codemod, some finding.rule, finding.location.bytes, some finding.location.start,
    [finding.id], detail⟩

/-- The skip of a match. -/
def ofMatch (m : Match) (unit : SourceUnit) (reason : SkipReason) (detail : Option String) : Skip :=
  ⟨reason, some m.codemodId, none, some m.site.span, some (unit.position m.site.span.start),
    m.findings, detail⟩

/-- Skips are ordered by span, start, codemod and reason. -/
def order (a b : Skip) : Ordering :=
  (Location.orderOptional Span.order a.span b.span).then <|
    (Location.orderOptional Position.order a.start b.start).then <|
    (Location.orderOptional compare a.codemod b.codemod).then
      (compare a.reason.rank b.reason.rank)

/-- Skips in their order. -/
def sorted (skips : List Skip) : List Skip := skips.mergeSort fun a b => (a.order b).isLE

/-- The skip as a document. What is not known is left out. -/
def toJson (s : Skip) : Json :=
  .object <| [("reason", .string s.reason.name)] ++
    (s.codemod.map fun c => ("codemod", .string c)).toList ++
    (s.rule.map fun r => ("rule", .string r)).toList ++
    (s.span.map fun p => ("span", p.toJson)).toList ++
    (s.start.map fun p => ("start", p.toJson)).toList ++
    (if s.findings.isEmpty then [] else [("findings", Json.strings s.findings)]) ++
    (s.detail.map fun d => ("detail", .string d)).toList

end Skip

end Remedy
