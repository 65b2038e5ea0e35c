import Remedy.Java.Parse
import Remedy.Source.Language
import Remedy.Source.ParseError
import Remedy.Text.Encoding
import Remedy.Text.LineIndex
/-!
# Source units

A unit is one file, decoded and parsed. Nothing that is wrong with a file
is an error here: the unit of such a file holds the cause and an empty
text, and no codemod ever sees it.
-/

namespace Remedy

/-- What files are read with: a guess at the character set of those without a
mark that are not in UTF-8, and a reader of Java. -/
structure Readers where
  guess : Bytes → Charset
  java : String → Except Java.ParseFault Java.Tree

/-- The guess is windows-1252, and the reader is that of the grammar. -/
def Readers.standard : Readers := ⟨fun _ => .windows1252, Java.parse⟩

/-- What became of the text of a file. -/
inductive UnitContent where
  | java (tree : Java.Tree)
  | plain
  | failed (error : ParseError)
deriving Repr

/-- One source file. The path is relative to the root of its project. -/
structure SourceUnit where
  path : Path
  language : Language
  encoding : TextEncoding
  text : String
  content : UnitContent
deriving Repr

namespace SourceUnit

/-- The unit of a file that could not be had. -/
def failed (path : Path) (language : Language) (error : ParseError) : SourceUnit :=
  ⟨path, language, .utf8, "", .failed error⟩

/-- The cause of a text that is not Java. -/
def syntaxError (text : String) (fault : Java.ParseFault) : ParseError :=
  let p := (LineIndex.ofText text).position fault.offset
  .syntaxError p.line p.column fault.message

/-- What a text becomes in a language. -/
def contentOf (language : Language) (text : String) (readers : Readers := .standard) :
    UnitContent :=
  match language with
  | .xml => .plain
  | .java =>
    match readers.java text with
    | .ok tree => .java tree
    | .error fault => .failed (syntaxError text fault)

/-- **The unit of a file's bytes.** -/
def ofBytes (path : Path) (language : Language) (bytes : Bytes)
    (readers : Readers := .standard) : SourceUnit :=
  match TextEncoding.decode bytes readers.guess with
  | .error charset => failed path language (.encoding charset.name)
  | .ok (text, encoding) => ⟨path, language, encoding, text, contentOf language text readers⟩

/-- The lines of the text. -/
def lines (unit : SourceUnit) : LineIndex := LineIndex.ofText unit.text

/-- The line-ending style of the text. -/
def lineEnding (unit : SourceUnit) : LineEnding := LineEnding.detect unit.text

/-- The syntax tree of a Java file. -/
def tree? (unit : SourceUnit) : Option Java.Tree :=
  match unit.content with
  | .java tree => some tree
  | _ => none

/-- Why the unit was left out, if it was. -/
def parseError? (unit : SourceUnit) : Option ParseError :=
  match unit.content with
  | .failed error => some error
  | _ => none

/-- The unit may be changed. -/
def isTransformable (unit : SourceUnit) : Bool := unit.parseError?.isNone

/-- The text under a span. -/
def slice? (unit : SourceUnit) (span : Span) : Option String := Text.slice? unit.text span

/-- The position of a byte offset. -/
def position (unit : SourceUnit) (offset : Nat) : Position := unit.lines.position offset

end SourceUnit

end Remedy
