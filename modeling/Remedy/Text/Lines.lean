import Remedy.Text.Slice
/-!
# Lines and line breaks

One scan divides a text into lines, each with the break that ends it:
`\n`, `\r\n` or a lone `\r`. The style of a file, the rewriting of
breaks, the line index and the line diff all read this one scan, so they
agree on what a line is.
-/

namespace Remedy

/-- The three ways to end a line. -/
inductive LineBreak where
  | lf
  | crlf
  | cr
deriving DecidableEq, Repr

/-- The characters of a line break. -/
def LineBreak.chars : LineBreak → List Char
  | .lf => ['\n']
  | .crlf => ['\r', '\n']
  | .cr => ['\r']

/-- One line of a text: its content, free of breaks, and the break that
ends it, which the last line lacks. -/
structure Line where
  content : List Char
  ending : Option LineBreak
deriving DecidableEq, Repr

namespace Line

/-- The characters of the line with those of its break. -/
def chars (line : Line) : List Char :=
  line.content ++ (line.ending.map LineBreak.chars).getD []

/-- The bytes the line takes up, its break included. -/
def size (line : Line) : Nat := Text.byteSize line.chars

/-- Reads on through a text, with the content of the current line and the
finished lines held in reverse. -/
def scanFrom (content : List Char) (done : List Line) : List Char → List Line
  | [] => (⟨content.reverse, none⟩ :: done).reverse
  | '\r' :: '\n' :: rest => scanFrom [] (⟨content.reverse, some .crlf⟩ :: done) rest
  | '\r' :: rest => scanFrom [] (⟨content.reverse, some .cr⟩ :: done) rest
  | '\n' :: rest => scanFrom [] (⟨content.reverse, some .lf⟩ :: done) rest
  | c :: rest => scanFrom (c :: content) done rest

/-- **The lines of a text.** There is always a last one, without a break;
it is empty when the text ends in a break. -/
def scan (text : String) : List Line := scanFrom [] [] text.toList

end Line

/-- The line-ending style of a text. -/
inductive LineEnding where
  | lf
  | crlf
  | cr
  | mixed
  | none
deriving DecidableEq, Repr, Inhabited

namespace LineEnding

/-- The style under which every break is the given one. -/
def ofBreak : LineBreak → LineEnding
  | .lf => .lf
  | .crlf => .crlf
  | .cr => .cr

/-- The style of a text: that of its breaks if they are all alike,
`mixed` if they differ, `none` if there are none. -/
def detect (text : String) : LineEnding :=
  match (Line.scan text).filterMap Line.ending with
  | [] => .none
  | b :: breaks => if breaks.all (· == b) then ofBreak b else .mixed

/-- The break that newly written lines get. -/
def newline : LineEnding → LineBreak
  | .crlf => .crlf
  | .cr => .cr
  | _ => .lf

/-- Every break of a text in this style. A mixed or unknown style leaves
the text as it is. -/
def apply (style : LineEnding) (text : String) : String :=
  match style with
  | .mixed | .none => text
  | _ =>
    let rewrite (line : Line) : Line := { line with ending := line.ending.map fun _ => style.newline }
    String.ofList ((Line.scan text).flatMap fun line => (rewrite line).chars)

/-- The name of the style in a report. -/
def name : LineEnding → String
  | .lf => "lf"
  | .crlf => "crlf"
  | .cr => "cr"
  | .mixed => "mixed"
  | .none => "none"

end LineEnding

end Remedy
