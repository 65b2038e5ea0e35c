import Remedy.Findings.Parsed
/-!
# Output of Semgrep

A list of results with lines and columns counted from one and byte offsets
counted from zero.
-/

namespace Remedy

namespace Semgrep

/-- One end of a result. -/
structure Mark where
  line : Nat
  column : Nat
  offset : Option Nat
deriving Repr

/-- What a result says beyond its place. -/
structure Extra where
  message : Option String
  severity : Option String
  metadata : Option (List (String × Json))
deriving Repr

/-- A result. -/
structure Result where
  rule : String
  path : String
  start : Mark
  stop : Mark
  extra : Option Extra
deriving Repr

/-! ## Reading the document -/

open Json

/-- One end of a result. -/
def readMark : Decoder Mark := fun doc => do
  let r ← record "struct SemgrepPosition" 3 doc
  r.done ((((r.required 0 "line" word32).and (r.required 1 "col" word32)).and
      (r.optional 2 "offset" size)).map
    fun ((line, column), offset) => ⟨line, column, offset⟩)

/-- The rest of a result. -/
def readExtra : Decoder Extra := fun doc => do
  let r ← record "struct Extra" 3 doc
  r.done ((((r.optional 0 "message" text).and (r.optional 1 "severity" text)).and
      (r.optional 2 "metadata" members)).map
    fun ((message, severity), metadata) => ⟨message, severity, metadata⟩)

/-- A result. -/
def readResult : Decoder Result := fun doc => do
  let r ← record "struct SemgrepResult" 5 doc
  let names := (r.required 0 "check_id" text).and (r.required 1 "path" text)
  let ends := (r.required 2 "start" readMark).and (r.required 3 "end" readMark)
  r.done (((names.and ends).and (r.optional 4 "extra" readExtra)).map
    fun (((rule, path), (start, stop)), extra) => ⟨rule, path, start, stop, extra⟩)

/-- The results of a document. -/
def readOutput : Decoder (List Result) := fun doc => do
  let r ← record "struct SemgrepOutput" 1 doc
  r.done (r.field 0 "results" (listOf readResult) (some []))

/-! ## Findings -/

/-- The position of a mark, from zero. -/
def Mark.position (m : Mark) : Position := ⟨m.line - 1, m.column - 1⟩

/-- The location of a result. Its bytes count if there are both offsets in
order. -/
def Result.location (result : Result) : Location :=
  let start := result.start.position
  let bytes := match result.start.offset, result.stop.offset with
    | some s, some e => if s ≤ e then some ⟨s, e⟩ else none
    | _, _ => none
  ⟨start, result.stop.position.later start, bytes, .chars⟩

/-- The finding of a result. -/
def Result.finding (result : Result) (root : Path) : Finding :=
  ParsedReport.finding "semgrep" result.rule result.path root result.location
    (.ofSemgrep (result.extra.bind Extra.severity)) (result.extra.bind Extra.message)
    ((result.extra.bind Extra.metadata).getD [])

/-- The document is an object without runs whose results all name a check. -/
def detects (doc : Json) : Bool :=
  (doc.member? "runs").isNone &&
    match doc.member? "results" with
    | some (.array results) => results.all fun r => (r.member? "check_id").isSome
    | _ => false

/-- **The findings of a document.** -/
def parse (root : Path) (doc : Json) : Except FormatFault ParsedReport := do
  let results ← (readOutput doc).mapError (.shape "Semgrep JSON output")
  return ⟨["semgrep"], results.map (·.finding root), 0⟩

end Semgrep

end Remedy
