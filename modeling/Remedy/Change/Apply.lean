import Remedy.Change.Match
import Remedy.Diff.Hunk
/-!
# Making the changes of a file

Each match is handed to its codemod on its own. A failure is recorded for
the match and hinders no other one. A replacement has to stay inside its
site and fall between characters; its breaks take the style of the file.
-/

namespace Remedy

/-- A change that was made, in places of the original text. -/
structure Change where
  span : Span
  start : Position
  stop : Position
  original : String
  replacement : String
  codemod : String
  findings : List String
  description : Option String
deriving DecidableEq, Repr

/-- The change as a document. -/
def Change.toJson (c : Change) : Json :=
  .object <| [("span", c.span.toJson), ("start", c.start.toJson), ("end", c.stop.toJson),
      ("original", .string c.original), ("replacement", .string c.replacement),
      ("codemod", .string c.codemod)] ++
    (if c.findings.isEmpty then [] else [("findings", Json.strings c.findings)]) ++
    (c.description.map fun d => ("description", .string d)).toList

/-- What went wrong with a file. -/
inductive FileError where
  /-- The file was left out. -/
  | parse (error : ParseError)
  /-- A match could not be made a change. -/
  | change (codemod : String) (span : Span) (findings : List String) (failure : ChangeFailure)
deriving DecidableEq, Repr

namespace FileError

/-- The wording of an error. -/
def message : FileError → String
  | .parse error => error.message
  | .change _ _ _ failure => failure.message

/-- The error as a document, told by the stage. -/
def toJson (e : FileError) : Json :=
  match e with
  | .parse error =>
    .object [("stage", .string "parse"), ("message", .string e.message), ("error", error.toJson)]
  | .change codemod span findings failure =>
    .object <| [("stage", .string "codemod"), ("message", .string e.message),
        ("codemod", .string codemod), ("span", span.toJson)] ++
      (if findings.isEmpty then [] else [("findings", Json.strings findings)]) ++
      [("error", failure.toJson)]

end FileError

/-- What came of one match. -/
inductive Outcome where
  | changed (change : Change)
  | failed (error : FileError)
  | unchanged (skip : Skip)
deriving DecidableEq, Repr

namespace Outcome

/-- The change that came of a match. -/
def change? : Outcome → Option Change
  | changed c => some c
  | _ => none

/-- The error that came of a match. -/
def error? : Outcome → Option FileError
  | failed e => some e
  | _ => none

/-- The skip that came of a match. -/
def skip? : Outcome → Option Skip
  | unchanged s => some s
  | _ => none

end Outcome

/-- What came of all matches of a file. -/
structure Execution where
  changes : List Change
  errors : List FileError
  unchanged : List Skip
deriving DecidableEq, Repr

namespace Execution

/-- A replacement stays inside its site and falls between characters. -/
def fits (unit : SourceUnit) (site : Site) (span : Span) : Bool :=
  site.span.contains span && span.start ≤ span.stop &&
    Text.isBoundary unit.text span.start && Text.isBoundary unit.text span.stop

/-- What comes of a replacement for a match. -/
def ofReplacement (unit : SourceUnit) (m : Match) (r : Replacement) : Outcome :=
  if fits unit m.site r.span then
    let original := (unit.slice? r.span).getD ""
    let text := unit.lineEnding.apply r.text
    if original = text then .unchanged (Skip.ofMatch m unit .noChange none)
    else
      .changed ⟨r.span, unit.position r.span.start, unit.position r.span.stop, original, text,
        m.codemodId, m.findings, r.description⟩
  else
    .failed (.change m.codemodId m.site.span m.findings
      (.escapes r.span.start r.span.stop m.site.span.start m.site.span.stop))

/-- What comes of a match, if its codemod is in the catalog. -/
def ofMatch? (ctx : CodemodContext) (catalog : Catalog) (m : Match) : Option Outcome :=
  catalog[m.codemod]?.map fun codemod =>
    match codemod.apply ctx m.site with
    | .ok r => ofReplacement ctx.unit m r
    | .error refusal => .failed (.change m.codemodId m.site.span m.findings refusal.toFailure)

/-- What comes of matches, each on its own, in the order of their sites. -/
def outcomes (ctx : CodemodContext) (catalog : Catalog) (found : List Match) : List Outcome :=
  (found.mergeSort fun a b => (a.order b).isLE).filterMap (ofMatch? ctx catalog)

/-- **What comes of matches**, the changes in the order of their spans. -/
def ofMatches (ctx : CodemodContext) (catalog : Catalog) (found : List Match) : Execution :=
  let results := outcomes ctx catalog found
  { changes := (results.filterMap Outcome.change?).mergeSort fun a b => a.span.le b.span
    errors := results.filterMap Outcome.error?
    unchanged := results.filterMap Outcome.skip? }

/-- The text with the changes made, unless they get in each other's way. -/
def text? (e : Execution) (original : String) : Option String :=
  Text.splice? original 0 (e.changes.map fun c => (c.span, c.replacement))

end Execution

end Remedy
