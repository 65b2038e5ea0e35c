import Remedy.Json.Basic
import Remedy.Text.Bytes
/-!
# Writing JSON

Two layouts: compact, without any space, and spread out, with two spaces
for each level. Both write members in the order they are held.
-/

namespace Remedy

namespace Json

/-- A character inside a string. Quotes, backslashes and the controls below
U+0020 are escaped, everything else stands for itself. -/
def escapeChar (c : Char) : List Char :=
  if c = '"' then ['\\', '"']
  else if c = '\\' then ['\\', '\\']
  else if c = '\n' then ['\\', 'n']
  else if c = '\r' then ['\\', 'r']
  else if c = '\t' then ['\\', 't']
  else if c = '\x08' then ['\\', 'b']
  else if c = '\x0c' then ['\\', 'f']
  else if c.toNat < 0x20 then
    ['\\', 'u', '0', '0', Hex.digit (c.toNat / 16), Hex.digit (c.toNat % 16)]
  else [c]

/-- A string in quotes. -/
def quote (s : String) : String :=
  String.ofList ('"' :: (s.toList.flatMap escapeChar ++ ['"']))

mutual

/-- **The compact text of a document.** -/
def compact : Json → String
  | .null => "null"
  | .bool b => if b then "true" else "false"
  | .number n => n.text
  | .string s => quote s
  | .array items => "[" ++ ",".intercalate (compactItems items) ++ "]"
  | .object members => "\x7b" ++ ",".intercalate (compactMembers members) ++ "\x7d"

/-- The compact texts of the items of an array. -/
def compactItems : List Json → List String
  | [] => []
  | item :: rest => compact item :: compactItems rest

/-- The compact texts of the members of an object. -/
def compactMembers : List (String × Json) → List String
  | [] => []
  | (key, value) :: rest => (quote key ++ ":" ++ compact value) :: compactMembers rest

end

/-- The start of a line at a level. -/
def indent (level : Nat) : String := "\n" ++ String.ofList (List.replicate (2 * level) ' ')

mutual

/-- The spread-out text of a document that stands at a level. -/
def prettyAt (level : Nat) : Json → String
  | .null => "null"
  | .bool b => if b then "true" else "false"
  | .number n => n.text
  | .string s => quote s
  | .array [] => "[]"
  | .array (item :: items) =>
    let lines := prettyItems (level + 1) (item :: items)
    "[" ++ ",".intercalate lines ++ indent level ++ "]"
  | .object [] => "\x7b\x7d"
  | .object (m :: members) =>
    let lines := prettyMembers (level + 1) (m :: members)
    "\x7b" ++ ",".intercalate lines ++ indent level ++ "\x7d"

/-- The lines of the items of an array. -/
def prettyItems (level : Nat) : List Json → List String
  | [] => []
  | item :: rest => (indent level ++ prettyAt level item) :: prettyItems level rest

/-- The lines of the members of an object. -/
def prettyMembers (level : Nat) : List (String × Json) → List String
  | [] => []
  | (key, value) :: rest =>
    (indent level ++ quote key ++ ": " ++ prettyAt level value) :: prettyMembers level rest

end

/-- **The spread-out text of a document.** -/
def pretty (doc : Json) : String := prettyAt 0 doc

end Json

end Remedy
