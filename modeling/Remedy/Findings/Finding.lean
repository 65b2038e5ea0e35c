import Remedy.Digest.Sha256
import Remedy.Findings.Location
import Remedy.Findings.Severity
import Remedy.Path.Basic
/-!
# Findings

What an analysis tool has to say about one place. A finding is known by
its tool, rule, path and location; its id is a digest of these, so that it
is the same in every run.
-/

namespace Remedy

/-- What a tool reports about one place of the project. -/
structure Finding where
  id : String
  tool : String
  rule : String
  path : Path
  location : Location
  severity : Severity
  message : Option String
  metadata : List (String × String)
deriving Repr, Inhabited

namespace Finding

/-- The text of a location in an identity. -/
def placeText (l : Location) : String :=
  let bytes := match l.bytes with
    | some s => s!"@{s.start}-{s.stop}"
    | none => ""
  let columns := if l.columns = .utf16 then "/utf16" else ""
  s!"{l.start.line}:{l.start.column}-{l.stop.line}:{l.stop.column}" ++ bytes ++ columns

/-- The bytes that tell a finding from others: its texts, each closed by a
zero byte, and its place. -/
def identity (tool rule : String) (path : Path) (location : Location) : Bytes :=
  Utf8.encode tool ++ 0 :: (Utf8.encode rule ++ 0 :: (Utf8.encode path.text ++
    0 :: Utf8.encode (placeText location)))

/-- The id of a finding: sixteen hexadecimal digits of a digest. -/
def idOf (tool rule : String) (path : Path) (location : Location) : String :=
  Hex.ofBytes ((Sha256.digest (identity tool rule path location)).take 8)

/-- The finding of given parts, with its own id. -/
def make (tool rule : String) (path : Path) (location : Location) (severity : Severity) : Finding :=
  ⟨idOf tool rule path location, tool, rule, path, location, severity, none, []⟩

/-- Findings are ordered by path, location, rule and tool. -/
def order (f g : Finding) : Ordering :=
  (f.path.order g.path).then <| (f.location.order g.location).then <|
    (compare f.rule g.rule).then (compare f.tool g.tool)

/-- The more severe of two findings, the first of two that are alike. -/
def worse (f g : Finding) : Finding := if f.severity.rank < g.severity.rank then g else f

/-- Joins findings that follow each other and are the same. -/
def collapse : List Finding → List Finding
  | f :: g :: rest =>
    if f.order g = .eq then collapse (worse f g :: rest) else f :: collapse (g :: rest)
  | findings => findings
termination_by findings => findings.length

/-- **Findings without repetition**, in order; of several that are the same
the first of the most severe ones stays. -/
def deduplicate (findings : List Finding) : List Finding :=
  collapse (findings.mergeSort fun f g => (f.order g).isLE)

/-- The finding as a document. -/
def toJson (f : Finding) : Json :=
  .object <| [("id", .string f.id), ("tool", .string f.tool), ("rule", .string f.rule),
      ("path", .string f.path.text), ("location", f.location.toJson),
      ("severity", .string f.severity.name)] ++
    (f.message.map fun m => ("message", .string m)).toList ++
    (if f.metadata.isEmpty then []
     else [("metadata", .object (f.metadata.map fun (k, v) => (k, .string v)))])

end Finding

end Remedy
