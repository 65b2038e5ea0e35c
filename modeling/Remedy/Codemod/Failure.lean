import Remedy.Json.Decode
/-!
# Why a change failed

A change fails when its codemod refuses it, when the codemod breaks down,
or when the new text would reach outside the place it was made for.
-/

namespace Remedy

/-- Why one change could not be made. -/
inductive ChangeFailure where
  | refused (message : String)
  | brokeDown (message : String)
  | escapes (start stop targetStart targetStop : Nat)
deriving DecidableEq, Repr

namespace ChangeFailure

/-- The wording of a failure. -/
def message : ChangeFailure → String
  | .refused message => message
  | .brokeDown message => s!"panicked: {message}"
  | .escapes start stop targetStart targetStop =>
    s!"replacement {start}..{stop} escapes its target {targetStart}..{targetStop}"

/-- The failure as a document, told by its kind. -/
def toJson : ChangeFailure → Json
  | .refused message => .object [("kind", .string "failed"), ("message", .string message)]
  | .brokeDown message => .object [("kind", .string "panicked"), ("message", .string message)]
  | .escapes start stop targetStart targetStop =>
    .object [("kind", .string "invalid-replacement"), ("start", .nat start), ("end", .nat stop),
      ("target_start", .nat targetStart), ("target_end", .nat targetStop)]

/-- The names of the kinds. -/
def kinds : List String := ["failed", "panicked", "invalid-replacement"]

/-- The failure that a document tells of. -/
def ofJson (doc : Json) : Except Json.DecodeFault ChangeFailure := do
  let (kind, rest) ← Json.tagged "CodemodError" "kind" kinds doc
  match kind with
  | "failed" =>
    let r ← Json.record "struct variant CodemodError::Failed" 1 rest
    r.variantDone ((r.required 0 "message" Json.text).map .refused)
  | "panicked" =>
    let r ← Json.record "struct variant CodemodError::Panicked" 1 rest
    r.variantDone ((r.required 0 "message" Json.text).map .brokeDown)
  | _ =>
    let r ← Json.record "struct variant CodemodError::InvalidReplacement" 4 rest
    let place := (r.required 0 "start" Json.size).and (r.required 1 "end" Json.size)
    let target := (r.required 2 "target_start" Json.size).and (r.required 3 "target_end" Json.size)
    r.variantDone ((place.and target).map fun ((a, b), (c, d)) => .escapes a b c d)

end ChangeFailure

end Remedy
