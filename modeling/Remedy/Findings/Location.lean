import Remedy.Json.Place
/-!
# Where a finding points

Lines and columns are counted from zero and the end is exclusive. A
finding on whole lines ends at the start of the line after the last one.
-/

namespace Remedy

/-- The place of a finding in a file: positions, and bytes if the report
tells them. -/
structure Location where
  start : Position
  stop : Position
  bytes : Option Span
  columns : ColumnUnit
deriving DecidableEq, Repr, Inhabited

namespace Location

/-- The location of whole lines, the last one included. -/
def lines (first last : Nat) : Location :=
  ⟨⟨first, 0⟩, ⟨max last first + 1, 0⟩, none, .chars⟩

/-- The first and the last line that a location covers. -/
def lineRange (l : Location) : Nat × Nat :=
  let last :=
    if l.stop.column = 0 ∧ l.start.line < l.stop.line then l.stop.line - 1 else l.stop.line
  (l.start.line, max last l.start.line)

/-- Nothing comes before something. -/
def orderOptional (order : α → α → Ordering) : Option α → Option α → Ordering
  | none, none => .eq
  | none, some _ => .lt
  | some _, none => .gt
  | some a, some b => order a b

/-- Locations are ordered by start, end, bytes and columns. -/
def order (l m : Location) : Ordering :=
  (l.start.order m.start).then <| (l.stop.order m.stop).then <|
    (orderOptional Span.order l.bytes m.bytes).then (l.columns.order m.columns)

/-- The location as a document. Characters are the columns that need no
word. -/
def toJson (l : Location) : Json :=
  .object <| [("start", l.start.toJson), ("end", l.stop.toJson)] ++
    (l.bytes.map fun s => ("bytes", s.toJson)).toList ++
    (if l.columns = .utf16 then [("columns", .string "utf16")] else [])

end Location

end Remedy
