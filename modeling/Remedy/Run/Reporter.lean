import Remedy.Run.Report
/-!
# Written forms of a change-set

A change-set is written as a document or as a patch.
-/

namespace Remedy

/-- A written form: its name, the extension of its files, and its text. -/
structure Reporter where
  name : String
  extension : String
  write : Report → String

namespace Reporter

/-- The document with line breaks, and one at its end. -/
def document : Reporter := ⟨"change-set", "json", fun report => report.toJson.pretty ++ "\n"⟩

/-- A text with another one behind it and a break at the end. -/
def appendLine (done next : String) : String :=
  let text := done ++ next
  if text.toList.getLast? = some '\n' then text else text ++ "\n"

/-- The unified diffs of all files that changed. -/
def patch : Reporter :=
  ⟨"patch", "patch", fun report =>
    (report.changedFiles.map FileResult.unified).foldl appendLine ""⟩

/-- The written form of a name. -/
def ofName? : String → Option Reporter
  | "json" => some document
  | "patch" => some patch
  | _ => none

end Reporter

end Remedy
