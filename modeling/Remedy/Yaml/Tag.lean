import Remedy.Text.Utf8
import Remedy.Yaml.Cursor
/-!
# Names, tags and directives

A tag has a handle, which a directive may give a meaning, and the text
after it, in which `%` and two digits write a byte. The tag `!` alone and
a tag in angle brackets have no handle.
-/

namespace Remedy

namespace Yaml

/-! ## Names -/

/-- A character that may follow the name of an anchor. -/
def mayFollowName : Option Char → Bool
  | none => true
  | some c =>
    endsWord (some c) || c = '?' || c = ':' || c = ',' || c = ']' || c = '\x7d' || c = '%' ||
      c = '@' || c = '\x60'

/-- Reads the name of an anchor or an alias, past its mark. -/
def anchorName (activity : Activity) (c : Cursor) : Except Fault (String × Cursor) :=
  let name := (c.advance 1).run isNameChar
  let next := c.advance (1 + name.length)
  if name.isEmpty ∨ !mayFollowName next.peek then
    .error (next.fault .expectedName activity c.mark)
  else .ok (String.ofList name, next)

/-! ## Tags -/

/-- A tag as written: its handle and what follows it. -/
structure TagName where
  handle : String
  text : Bytes
deriving DecidableEq, Repr

/-- A character of the text of a tag. Commas and square brackets may stand
in it only where no collection is around it. -/
def isTagChar (bare : Bool) (c : Char) : Bool :=
  isNameChar c || ";/?:@&=+$.!~*'()%".toList.contains c || (bare && ",[]".toList.contains c)

/-- How many bytes a character has that begins with a byte. -/
def octets? (first : Nat) : Option Nat :=
  if first < 0x80 then some 1
  else if first / 0x20 = 6 then some 2
  else if first / 0x10 = 14 then some 3
  else if first / 0x08 = 30 then some 4
  else none

/-- The byte that a percent sign and two digits write. -/
def octet? (c : Cursor) : Option Nat :=
  match c.rest with
  | '%' :: high :: low :: _ => do return (← Hex.value? high) * 16 + (← Hex.value? low)
  | _ => none

/-- Reads the `count` bytes after the first of a character. -/
def trailingOctets (activity : Activity) (start : Mark) :
    Nat → Bytes → Cursor → Except Fault (Bytes × Cursor)
  | 0, done, c => .ok (done, c)
  | count + 1, done, c =>
    match octet? c with
    | none => .error (c.fault .expectedOctet activity start)
    | some n =>
      if n / 0x40 = 2 then
        trailingOctets activity start count (done ++ [UInt8.ofNat n]) (c.advance 3)
      else .error (c.fault .badTrailingOctet activity start)

/-- Reads the bytes of one character, each written by number. -/
def writtenOctets (activity : Activity) (start : Mark) (c : Cursor) :
    Except Fault (Bytes × Cursor) :=
  match octet? c with
  | none => .error (c.fault .expectedOctet activity start)
  | some first =>
    match octets? first with
    | none => .error (c.fault .badLeadingOctet activity start)
    | some count =>
      trailingOctets activity start (count - 1) [UInt8.ofNat first] (c.advance 3)

/-- Reads on in the text of a tag. -/
def tagTextFrom (bare : Bool) (activity : Activity) (start : Mark) :
    Nat → Bytes → Cursor → Except Fault (Bytes × Cursor)
  | 0, done, c => .ok (done, c)
  | fuel + 1, done, c =>
    match c.peek with
    | none => .ok (done, c)
    | some x =>
      if !isTagChar bare x then .ok (done, c)
      else if x = '%' then do
        let (bytes, next) ← writtenOctets activity start c
        tagTextFrom bare activity start fuel (done ++ bytes) next
      else
        tagTextFrom bare activity start fuel (done ++ [UInt8.ofNat x.toNat]) (c.advance 1)

/-- Reads the text of a tag after the part of it that was read already. It
may be empty only after such a part. -/
def tagText (bare : Bool) (activity : Activity) (start : Mark) (head : List Char) (c : Cursor) :
    Except Fault (Bytes × Cursor) := do
  let done := Utf8.encode (String.ofList (head.drop 1))
  let (text, next) ← tagTextFrom bare activity start c.rest.length done c
  if head.isEmpty ∧ next.mark.index = c.mark.index then
    throw (c.fault .expectedTagText activity start)
  return (text, next)

/-- Reads a handle: an exclamation mark, a name, and another mark, if one
is there. -/
def tagHandle (c : Cursor) : Option (List Char × Cursor) :=
  if c.sees '!' then
    let name := (c.advance 1).run isNameChar
    let next := c.advance (1 + name.length)
    if next.sees '!' then some ('!' :: name ++ ['!'], next.advance 1)
    else some ('!' :: name, next)
  else none

/-- Whether what was read as a handle is one: more than one mark, and
closed. -/
def isHandle (text : List Char) : Bool := 2 ≤ text.length && text.getLast? = some '!'

/-- Reads a tag as such; what follows it is not looked at. -/
def tagName (c : Cursor) : Except Fault (TagName × Cursor) := do
  let start := c.mark
  if c.peekAt 1 = some '<' then
    let (text, next) ← tagText true .tagText start [] (c.advance 2)
    if !next.sees '>' then throw (next.fault .expectedTagEnd .tag start)
    return (⟨"", text⟩, next.advance 1)
  match tagHandle c with
  | none => throw (c.fault .expectedTagMark .tag start)
  | some (head, next) =>
    if isHandle head then
      let (text, next) ← tagText false .tagText start [] next
      return (⟨String.ofList head, text⟩, next)
    let (text, next) ← tagText false .tagText start head next
    if text.isEmpty then return (⟨"", Utf8.encode "!"⟩, next)
    return (⟨"!", text⟩, next)

/-- **Reads a tag.** White space has to follow it, or a comma inside
brackets. -/
def tag (flow : Bool) (c : Cursor) : Except Fault (TagName × Cursor) := do
  let (name, next) ← tagName c
  if (flow ∧ next.sees ',') ∨ endsWord next.peek then return (name, next)
  throw (next.fault .expectedSpaceOrLineEnd .tag c.mark)

/-! ## Directives -/

/-- What a directive tells of the documents after it. -/
inductive Directive where
  | version (major minor : Nat)
  | tag (handle : String) (meaning : Bytes)
deriving DecidableEq, Repr

/-- The most digits of a number in a version. -/
def versionDigits : Nat := 9

/-- Reads a number of a version. -/
def versionNumber (start : Mark) (c : Cursor) : Except Fault (Nat × Cursor) :=
  let digits := c.run Char.isDigit
  if versionDigits < digits.length then
    .error ((c.advance versionDigits).fault .longVersion .versionDirective start)
  else if digits.isEmpty then .error (c.fault .expectedVersion .versionDirective start)
  else .ok (digits.foldl (fun n d => n * 10 + (d.toNat - 48)) 0, c.advance digits.length)

/-- Reads the version of a directive. -/
def versionDirective (start : Mark) (c : Cursor) : Except Fault (Directive × Cursor) := do
  let (major, c) ← versionNumber start (c.passAll isGap)
  if !c.sees '.' then throw (c.fault .expectedVersionPoint .versionDirective start)
  let (minor, c) ← versionNumber start (c.advance 1)
  return (.version major minor, c)

/-- Reads the handle of a directive and its meaning. -/
def tagDirective (start : Mark) (c : Cursor) : Except Fault (Directive × Cursor) := do
  let c := c.passAll isGap
  match tagHandle c with
  | none => throw (c.fault .expectedTagMark .directiveHandle start)
  | some (handle, c) =>
    if !(isHandle handle || handle = ['!']) then
      throw (c.fault .expectedTagMark .directiveHandleEnd start)
    if !c.seesA isGap then throw (c.fault .expectedSpace .tagDirective start)
    let (meaning, c) ← tagText true .directiveTagText start [] (c.passAll isGap)
    if !endsWord c.peek then throw (c.fault .expectedSpaceOrLineEnd .tagDirective start)
    return (.tag (String.ofList handle) meaning, c)

/-- **Reads a directive** and its line. The place told with it is the end
of the directive. -/
def directive (c : Cursor) : Except Fault (Directive × Mark × Cursor) := do
  let start := c.mark
  let name := (c.advance 1).run isNameChar
  let c := c.advance (1 + name.length)
  if name.isEmpty then throw (c.fault .expectedDirectiveName .directive start)
  if !endsWord c.peek then throw (c.fault .badDirectiveName .directive start)
  let (told, c) ←
    if name = "YAML".toList then versionDirective start c
    else if name = "TAG".toList then tagDirective start c
    else throw (c.fault .unknownDirective .directive start)
  let next := (c.passAll isGap).passComment
  if !endsLine next.peek then throw (next.fault .expectedLineEnd .directive start)
  return (told, c.mark, next.passAnyBreak)

end Yaml

end Remedy
