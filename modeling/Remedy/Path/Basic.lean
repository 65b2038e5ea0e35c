import Remedy.Text.Utf8
/-!
# Paths

A path keeps the text it was written in. Its components decide what it
names: repeated and trailing slashes do not count, and neither does a `.`
past the start. Paths are ordered component by component.
-/

namespace Remedy

/-- A path as written, with `/` between its components. -/
structure Path where
  text : String
deriving DecidableEq, Repr, Inhabited

/-- One step of a path. -/
inductive PathComponent where
  | root
  | current
  | parent
  | name (s : String)
deriving DecidableEq, Repr

namespace PathComponent

/-- The text of a component. -/
def text : PathComponent → String
  | .root => "/"
  | .current => "."
  | .parent => ".."
  | .name s => s

/-- The place of the kind of a component among the kinds. -/
def rank : PathComponent → Nat
  | .root => 0
  | .current => 1
  | .parent => 2
  | .name _ => 3

/-- Components are ordered by kind, and names by their characters. -/
def order : PathComponent → PathComponent → Ordering
  | .name a, .name b => compare a b
  | a, b => compare a.rank b.rank

end PathComponent

namespace Path

/-- Divides characters at a separator, with a part before the first and
after the last one. -/
def splitAt (separator : Char) : List Char → List (List Char)
  | [] => [[]]
  | c :: cs =>
    if c = separator then [] :: splitAt separator cs
    else
      match splitAt separator cs with
      | part :: parts => (c :: part) :: parts
      | [] => [[c]]

/-- The component of a part past the start; an empty part and `.` have
none. -/
def component? (part : List Char) : Option PathComponent :=
  if part = [] ∨ part = ['.'] then none
  else if part = ['.', '.'] then some .parent
  else some (.name (String.ofList part))

/-- A path that starts at the root. -/
def isAbsolute (p : Path) : Bool := p.text.toList.head? == some '/'

/-- **The components of a path.** -/
def components (p : Path) : List PathComponent :=
  match splitAt '/' p.text.toList with
  | [] => []
  | first :: rest =>
    let tail := rest.filterMap component?
    if p.isAbsolute then .root :: tail
    else if first = ['.'] then .current :: tail
    else (component? first).toList ++ tail

/-- Two paths that name the same place. -/
def same (p q : Path) : Bool := p.components == q.components

/-- The order of two lists of components. -/
def orderComponents : List PathComponent → List PathComponent → Ordering
  | [], [] => .eq
  | [], _ :: _ => .lt
  | _ :: _, [] => .gt
  | a :: as, b :: bs => (a.order b).then (orderComponents as bs)

/-- Paths are ordered by their components. -/
def order (p q : Path) : Ordering := orderComponents p.components q.components

/-- The path of given components. -/
def ofComponents : List PathComponent → Path
  | .root :: rest => ⟨"/" ++ "/".intercalate (rest.map PathComponent.text)⟩
  | parts => ⟨"/".intercalate (parts.map PathComponent.text)⟩

/-- The path without superfluous slashes and without any `.`. -/
def normalize (p : Path) : Path :=
  ofComponents (p.components.filter (· ≠ .current))

/-- A path below another one. An absolute path stands for itself. -/
def join (p q : Path) : Path :=
  if q.isAbsolute then q
  else if p.text.isEmpty ∨ p.text.toList.getLast? = some '/' then ⟨p.text ++ q.text⟩
  else ⟨p.text ++ "/" ++ q.text⟩

/-- What follows the components of `base`, if the list starts with them. -/
def stripComponents? : List PathComponent → List PathComponent → Option (List PathComponent)
  | [], rest => some rest
  | b :: base, c :: rest => if b = c then stripComponents? base rest else none
  | _ :: _, [] => none

/-- The components of a path below another one. -/
def under? (p base : Path) : Option (List PathComponent) :=
  stripComponents? base.components p.components

/-- The last component, if it is a name. -/
def fileName? (p : Path) : Option String :=
  match p.components.getLast? with
  | some (.name s) => some s
  | _ => none

/-- The path without its last component. -/
def parent? (p : Path) : Option Path :=
  match p.components.reverse with
  | [] | .root :: _ => none
  | _ :: before => some (ofComponents before.reverse)

/-- What follows the last point of a name that does not start with its
only point. -/
def extension? (p : Path) : Option String := do
  let name ← p.fileName?
  let reversed := name.toList.reverse
  let after := reversed.takeWhile (· ≠ '.')
  match reversed.drop after.length with
  | '.' :: _ :: _ => some (String.ofList after.reverse)
  | _ => none

/-- The text that patterns are matched against, with `/` for `\`. -/
def display (p : Path) : String :=
  String.ofList (p.text.toList.map fun c => if c = '\\' then '/' else c)

end Path

end Remedy
