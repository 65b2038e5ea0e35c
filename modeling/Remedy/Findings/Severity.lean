import Remedy.Decimal.Reader
import Remedy.Json.Basic
import Remedy.Text.Case
/-!
# Severity

How bad a finding is, on a scale of five, and how the levels and scores
of reports are put on that scale.
-/

namespace Remedy

/-- How bad a finding is. -/
inductive Severity where
  | info
  | low
  | medium
  | high
  | critical
deriving DecidableEq, Repr, Inhabited

namespace Severity

/-- The written name. -/
def name : Severity → String
  | .info => "info"
  | .low => "low"
  | .medium => "medium"
  | .high => "high"
  | .critical => "critical"

/-- The name for a reader. -/
def label (s : Severity) : String := Text.upperAscii s.name

/-- The place on a scale up to a hundred. -/
def rank : Severity → Nat
  | .info => 0
  | .low => 25
  | .medium => 50
  | .high => 75
  | .critical => 100

/-- The severity of a SARIF level. Without one it is that of a warning. -/
def ofLevel (level : Option String) : Severity :=
  match level.map Text.lowerAscii with
  | some "error" => .high
  | some "note" => .low
  | some "none" => .info
  | _ => .medium

/-- The severity of a score between zero and ten. -/
def ofScore (score : Float) : Severity :=
  if score ≥ 9.0 then .critical
  else if score ≥ 7.0 then .high
  else if score ≥ 4.0 then .medium
  else if score > 0.0 then .low
  else .info

/-- The severity of a Semgrep severity. -/
def ofSemgrep (severity : Option String) : Severity :=
  match severity.map Text.lowerAscii with
  | some "error" | some "high" => .high
  | some "critical" => .critical
  | some "info" | some "low" => .low
  | _ => .medium

/-- The score that a document holds as a number or as text. -/
def score? : Json → Option Float
  | .number n => some n.toFloat
  | .string s => Decimal.double? s
  | _ => none

end Severity

end Remedy
