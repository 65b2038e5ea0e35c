import Remedy.Json.Decode
/-!
# Why a file is left out

A file that cannot be read, decoded or parsed is left out of a run, and
one of these causes is kept for it.
-/

namespace Remedy

/-- Why a source file was left out. -/
inductive ParseError where
  | io (reason : String)
  | encoding (name : String)
  | syntaxError (line column : Nat) (message : String)
  | timeout (milliseconds : Nat)
  | tooLarge (size limit : Nat)
  | language (reason : String)
deriving DecidableEq, Repr

namespace ParseError

/-- The wording of a cause. -/
def message : ParseError → String
  | .io reason => s!"read failed: {reason}"
  | .encoding name => s!"undecodable as {name}"
  | .syntaxError line column message => s!"syntax error at {line}:{column}: {message}"
  | .timeout ms => s!"gave up after {ms}ms"
  | .tooLarge size limit => s!"file is {size} bytes, limit is {limit}"
  | .language reason => s!"parser unavailable: {reason}"

/-- The cause as a document, told by its kind. -/
def toJson : ParseError → Json
  | .io reason => .object [("kind", .string "io"), ("reason", .string reason)]
  | .encoding name => .object [("kind", .string "encoding"), ("encoding", .string name)]
  | .syntaxError line column message =>
    .object [("kind", .string "syntax"), ("line", .nat line), ("column", .nat column),
      ("message", .string message)]
  | .timeout ms => .object [("kind", .string "timeout"), ("timeout_ms", .nat ms)]
  | .tooLarge size limit =>
    .object [("kind", .string "too-large"), ("size", .nat size), ("limit", .nat limit)]
  | .language reason => .object [("kind", .string "language"), ("reason", .string reason)]

/-- The names of the kinds. -/
def kinds : List String := ["io", "encoding", "syntax", "timeout", "too-large", "language"]

/-- A variant with one text. -/
def oneText (name key : String) (make : String → ParseError) (doc : Json) :
    Except Json.DecodeFault ParseError := do
  let r ← Json.record name 1 doc
  r.variantDone ((r.required 0 key Json.text).map make)

/-- The cause that a document tells of. -/
def ofJson (doc : Json) : Except Json.DecodeFault ParseError := do
  let (kind, rest) ← Json.tagged "ParseError" "kind" kinds doc
  match kind with
  | "io" => oneText "struct variant ParseError::Io" "reason" .io rest
  | "encoding" => oneText "struct variant ParseError::Encoding" "encoding" .encoding rest
  | "syntax" =>
    let r ← Json.record "struct variant ParseError::Syntax" 3 rest
    r.variantDone ((((r.required 0 "line" Json.word32).and (r.required 1 "column" Json.word32)).and
      (r.required 2 "message" Json.text)).map fun ((l, c), m) => .syntaxError l c m)
  | "timeout" =>
    let r ← Json.record "struct variant ParseError::Timeout" 1 rest
    r.variantDone ((r.required 0 "timeout_ms" Json.word64).map .timeout)
  | "too-large" =>
    let r ← Json.record "struct variant ParseError::TooLarge" 2 rest
    r.variantDone (((r.required 0 "size" Json.word64).and (r.required 1 "limit" Json.word64)).map
      fun (s, l) => .tooLarge s l)
  | _ => oneText "struct variant ParseError::Language" "reason" .language rest

end ParseError

end Remedy
