import Remedy.Decimal.Power
import Remedy.Findings.Parsed
import Remedy.Text.Case
/-!
# SARIF logs

A log holds runs of tools, a run its rules and results. Lines and columns
of a log are counted from one, and columns are UTF-16 units unless the run
says otherwise. A result without a rule or without a place is dropped and
counted.
-/

namespace Remedy

namespace Sarif

/-- A rule that a tool describes. -/
structure Rule where
  id : String
  level : Option String
  properties : Option (List (String × Json))
deriving Repr

/-- The part of a file that a result is about. -/
structure Region where
  startLine : Option Nat
  startColumn : Option Nat
  endLine : Option Nat
  endColumn : Option Nat
  byteOffset : Option Nat
  byteLength : Option Nat
deriving Repr

/-- The first place of a result. -/
structure Place where
  uri : Option String
  region : Option Region
deriving Repr

/-- How a result names its rule: by id or by the index among the rules of
the tool. -/
structure RuleReference where
  id : Option String
  index : Option Nat
deriving Repr

/-- A result of a run. -/
structure Result where
  ruleId : Option String
  ruleIndex : Option Nat
  rule : Option RuleReference
  level : Option String
  message : Option String
  places : List (Option Place)
  properties : Option (List (String × Json))
deriving Repr

/-- The tool of a run with the rules it describes. -/
structure Driver where
  name : String
  rules : List Rule
deriving Repr

/-- A run of a tool. -/
structure Run where
  driver : Driver
  results : Option (List Result)
  columnKind : Option String
deriving Repr

/-! ## Reading the document -/

open Json

/-- A record with one optional field. -/
def oneOptional (name key : String) (decode : Decoder α) : Decoder (Option α) := fun doc => do
  let r ← record name 1 doc
  r.done (r.optional 0 key decode)

/-- A rule of a tool. -/
def readRule : Decoder Rule := fun doc => do
  let r ← record "struct RuleDescriptor" 3 doc
  let configuration := oneOptional "struct RuleConfiguration" "level" text
  r.done ((((r.required 0 "id" text).and
      (r.optional 1 "defaultConfiguration" configuration)).and
      (r.optional 2 "properties" members)).map
    fun ((id, level), properties) => ⟨id, level.join, properties⟩)

/-- A region of a file. -/
def readRegion : Decoder Region := fun doc => do
  let r ← record "struct Region" 6 doc
  let start := (r.optional 0 "startLine" word32).and (r.optional 1 "startColumn" word32)
  let stop := (r.optional 2 "endLine" word32).and (r.optional 3 "endColumn" word32)
  let bytes := (r.optional 4 "byteOffset" size).and (r.optional 5 "byteLength" size)
  r.done (((start.and stop).and bytes).map
    fun (((a, b), (c, d)), (e, f)) => ⟨a, b, c, d, e, f⟩)

/-- A file and a region of it. -/
def readPlace : Decoder Place := fun doc => do
  let r ← record "struct PhysicalLocation" 2 doc
  let artifact := oneOptional "struct ArtifactLocation" "uri" text
  r.done (((r.optional 0 "artifactLocation" artifact).and (r.optional 1 "region" readRegion)).map
    fun (uri, region) => ⟨uri.join, region⟩)

/-- A reference to a rule. -/
def readRuleReference : Decoder RuleReference := fun doc => do
  let r ← record "struct RuleReference" 2 doc
  r.done (((r.optional 0 "id" text).and (r.optional 1 "index" size)).map
    fun (id, index) => ⟨id, index⟩)

/-- A result of a run. -/
def readResult : Decoder Result := fun doc => do
  let r ← record "struct SarifResult" 7 doc
  let places := listOf (oneOptional "struct SarifLocation" "physicalLocation" readPlace)
  let rule := ((r.optional 0 "ruleId" text).and (r.optional 1 "ruleIndex" size)).and
    (r.optional 2 "rule" readRuleReference)
  let words := (r.optional 3 "level" text).and
    (r.optional 4 "message" (oneOptional "struct Message" "text" text))
  let rest := (r.field 5 "locations" places (some [])).and (r.optional 6 "properties" members)
  r.done (((rule.and words).and rest).map
    fun ((((id, index), rule), (level, message)), (places, properties)) =>
      ⟨id, index, rule, level, message.join, places, properties⟩)

/-- The name and the rules of a tool. -/
def readDriver : Decoder Driver := fun doc => do
  let r ← record "struct Driver" 2 doc
  r.done (((r.required 0 "name" text).and (r.field 1 "rules" (listOf readRule) (some []))).map
    fun (name, rules) => ⟨name, rules⟩)

/-- The tool of a run. -/
def readTool : Decoder Driver := fun doc => do
  let r ← record "struct Tool" 1 doc
  r.done (r.required 0 "driver" readDriver)

/-- A run of a tool. -/
def readRun : Decoder Run := fun doc => do
  let r ← record "struct Run" 3 doc
  r.done ((((r.required 0 "tool" readTool).and (r.optional 1 "results" (listOf readResult))).and
      (r.optional 2 "columnKind" text)).map
    fun ((driver, results), columnKind) => ⟨driver, results, columnKind⟩)

/-- The runs of a log. -/
def readLog : Decoder (List Run) := fun doc => do
  let r ← record "struct SarifLog" 1 doc
  r.done (r.field 0 "runs" (listOf readRun) (some []))

/-! ## Findings -/

/-- The bytes of a region. A range past the largest offset is a fault. -/
def Region.bytes? (r : Region) : Option (Option Span) :=
  match r.byteOffset with
  | none => some none
  | some offset =>
    let stop := offset + r.byteLength.getD 0
    if stop < Power.two 64 then some (some ⟨offset, stop⟩) else none

/-- The first line of a region from zero, which may be left out if there
are bytes. -/
def Region.firstLine? (r : Region) : Option Nat :=
  match r.startLine with
  | some 0 => none
  | some (line + 1) => some line
  | none => if r.byteOffset.isSome then some 0 else none

/-- The location of a region. Without an end column it covers whole lines. -/
def Region.location? (r : Region) (columns : ColumnUnit) : Option Location := do
  let bytes ← r.bytes?
  let first ← r.firstLine?
  let start : Position := ⟨first, (r.startColumn.getD 1) - 1⟩
  let last := max ((r.endLine.map (· - 1)).getD first) first
  let stop : Position := match r.endColumn with
    | some column => ⟨last, column - 1⟩
    | none => ⟨last + 1, 0⟩
  some ⟨start, stop.later start, bytes, columns⟩

/-- What the columns of a run count. -/
def Run.columns (run : Run) : ColumnUnit :=
  if run.columnKind = some "unicodeCodePoints" then .chars else .utf16

/-- The rule of a result, by its id or by an index. -/
def Result.rule? (result : Result) (rules : List Rule) : Option String :=
  let index := result.ruleIndex.or (result.rule.bind RuleReference.index)
  (result.ruleId.or (result.rule.bind RuleReference.id)).or
    (index.bind fun i => rules[i]?.map Rule.id)

/-- How severe a result is: by the score of its rule, by its level, or by
that of its rule. -/
def Result.severity (result : Result) (rule : Option Rule) : Severity :=
  let score := do
    let properties ← (← rule).properties
    Severity.score? (← properties.lookup "security-severity")
  match score with
  | some score => .ofScore score
  | none => .ofLevel (result.level.or (rule.bind Rule.level))

/-- The finding of a result, if it has a rule and a place. -/
def Result.finding? (result : Result) (root : Path) (tool : String) (rules : List Rule)
    (columns : ColumnUnit) : Option Finding := do
  let rule ← result.rule? rules
  let place ← result.places.head?.join
  let uri ← place.uri
  let location ← (← place.region).location? columns
  let severity := result.severity (rules.find? (·.id = rule))
  some (ParsedReport.finding tool rule uri root location severity result.message
    (result.properties.getD []))

/-- The findings of a run and the number of results that are none. -/
def Run.findings (run : Run) (root : Path) : List Finding × Nat :=
  let results := run.results.getD []
  let tool := Text.lowerAscii run.driver.name
  let found := results.filterMap (·.finding? root tool run.driver.rules run.columns)
  (found, results.length - found.length)

/-- The document is an object with a list of runs. -/
def detects (doc : Json) : Bool :=
  match doc.member? "runs" with
  | some (.array _) => true
  | _ => false

/-- **The findings of a log.** -/
def parse (root : Path) (doc : Json) : Except FormatFault ParsedReport := do
  let runs ← (readLog doc).mapError (.shape "a SARIF log")
  if runs.isEmpty then throw .noRuns
  let parts := runs.map (·.findings root)
  return { tools := runs.map fun run => Text.lowerAscii run.driver.name
           findings := parts.flatMap (·.1)
           dropped := (parts.map (·.2)).foldr (· + ·) 0 }

end Sarif

end Remedy
