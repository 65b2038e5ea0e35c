import Remedy.Path.Basic
import Remedy.Text.Case
/-!
# Languages

The kinds of source file a run handles, told by the extension of the file
name in any case.
-/

namespace Remedy

/-- A kind of source file. -/
inductive Language where
  | java
  | xml
deriving DecidableEq, Repr, Inhabited

namespace Language

/-- The name of the language in a report. -/
def name : Language → String
  | .java => "java"
  | .xml => "xml"

/-- The language of a path, if its extension is known. -/
def ofPath? (path : Path) : Option Language := do
  let extension ← path.extension?
  match Text.lowerAscii extension with
  | "java" => some .java
  | "xml" => some .xml
  | _ => none

end Language

end Remedy
