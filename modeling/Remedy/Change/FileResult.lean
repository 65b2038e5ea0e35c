import Remedy.Change.Apply
import Remedy.Change.Plan
import Remedy.Diff.Unified
/-!
# What becomes of a file

A file is planned, changed and compared with what it was. Nothing that
goes wrong stops a run: it is recorded with the file.
-/

namespace Remedy

/-- Everything that happened to one file. -/
structure FileResult where
  path : Path
  language : Language
  encoding : TextEncoding
  lineEnding : LineEnding
  changes : List Change
  diff : List DiffHunk
  unified : String
  skipped : List Skip
  errors : List FileError
  resolutionGaps : Nat
  /-- The new text, if it differs. -/
  transformed : Option String
  /-- The new text in the encoding of the file. -/
  encoded : Option Bytes
deriving Repr

namespace FileResult

/-- Something in the file changed. -/
def isChanged (r : FileResult) : Bool := !r.diff.isEmpty

/-- There is something to tell about the file. -/
def isNoteworthy (r : FileResult) : Bool :=
  r.isChanged || !r.skipped.isEmpty || !r.errors.isEmpty

/-- The result of a file that nothing happened to. -/
def untouched (unit : SourceUnit) (symbols : SymbolTable) : FileResult :=
  { path := unit.path, language := unit.language, encoding := unit.encoding
    lineEnding := unit.lineEnding, changes := [], diff := [], unified := "", skipped := []
    errors := [], resolutionGaps := (symbols.gaps unit.path).length
    transformed := none, encoded := none }

/-- What comes of the matches that the plan of a file accepts. -/
def executed (ctx : PlanContext) (findings : List Finding) : Execution :=
  Execution.ofMatches (Plan.view ctx) ctx.catalog (Plan.ofFindings ctx findings).accepted

/-- The text of a file with its changes made. The changes of a plan never
get in each other's way; if they did, the text would stay. -/
def newText (ctx : PlanContext) (findings : List Finding) : String :=
  ((executed ctx findings).text? ctx.unit.text).getD ctx.unit.text

/-- The result of a file that could not be parsed: each finding is
skipped. -/
def ofFailed (ctx : PlanContext) (findings : List Finding) (error : ParseError) : FileResult :=
  { untouched ctx.unit ctx.symbols with
    errors := [.parse error]
    skipped := Skip.sorted (findings.map fun f => Skip.ofFinding f .parseFailed none none) }

/-- The result of a file that was parsed, under a way to compare texts. -/
def ofParsed (differ : Differ) (ctx : PlanContext) (findings : List Finding) : FileResult :=
  let done := executed ctx findings
  let text := newText ctx findings
  let diff := Diff.ofTextsBy differ ctx.unit.path.display ctx.unit.text text
  let changed := !diff.hunks.isEmpty
  { untouched ctx.unit ctx.symbols with
    changes := done.changes
    diff := diff.hunks
    unified := diff.unified
    skipped := Skip.sorted ((Plan.ofFindings ctx findings).skipped ++ done.unchanged)
    errors := done.errors
    transformed := if changed then some text else none
    encoded := if changed then some (ctx.unit.encoding.encode text) else none }

/-- The result of a file for the findings on it, under a way to compare
texts. -/
def ofFindingsBy (differ : Differ) (ctx : PlanContext) (findings : List Finding) : FileResult :=
  match ctx.unit.parseError? with
  | some error => ofFailed ctx findings error
  | none => ofParsed differ ctx findings

/-- **The result of a file** for the findings on it. -/
def ofFindings (ctx : PlanContext) (findings : List Finding) : FileResult :=
  ofFindingsBy .byScript ctx findings

/-- The result as a document. -/
def toJson (r : FileResult) : Json :=
  .object <| [("path", .string r.path.text), ("language", .string r.language.name),
      ("encoding", r.encoding.toJson), ("line_ending", .string r.lineEnding.name),
      ("changes", .array (r.changes.map Change.toJson)),
      ("diff", .array (r.diff.map DiffHunk.toJson))] ++
    (if r.unified.isEmpty then [] else [("unified_diff", .string r.unified)]) ++
    [("skipped", .array (r.skipped.map Skip.toJson)),
      ("errors", .array (r.errors.map FileError.toJson)),
      ("resolution_gaps", .nat r.resolutionGaps)]

end FileResult

end Remedy
