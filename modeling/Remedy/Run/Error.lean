import Remedy.Pattern.PathFilter
/-!
# What stops a run

A run is stopped by its surroundings or its settings alone. What is wrong
with a report or a file is told in the outcome of the run.
-/

namespace Remedy

/-- Why a run could not be made. -/
inductive RunError where
  | unreadableRoot (path : Path) (reason : String)
  | unwritableOutput (path : Path) (reason : String)
  | invalidConfig (path : Path) (reason : String)
  | unknownCodemod (id : String)
  | invalidPattern (error : PatternError)
  /-- A step that failed, and its causes, the outermost first. -/
  | failed (causes : List String)
deriving Repr

namespace RunError

/-- The wording of an error. -/
def message : RunError → String
  | .unreadableRoot path reason => s!"cannot read project root {path.text}: {reason}"
  | .unwritableOutput path reason => s!"cannot write output {path.text}: {reason}"
  | .invalidConfig path reason => s!"invalid configuration {path.text}: {reason}"
  | .unknownCodemod id => s!"unknown codemod in selection: {id}"
  | .invalidPattern e => s!"invalid path pattern {e.pattern}: {e.cause.message}"
  | .failed causes => ": ".intercalate causes

end RunError

end Remedy
