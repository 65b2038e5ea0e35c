import Remedy.Codemod.Basic
/-!
# Which codemods take part

A selection is a default and the ids that are exceptions to it. Every id
it names has to be in the catalog.
-/

namespace Remedy

/-- Which codemods of a catalog take part in a run. -/
structure Selection where
  byDefault : Bool
  exceptions : List String
deriving DecidableEq, Repr, Inhabited

namespace Selection

/-- Every codemod takes part. -/
def everything : Selection := ⟨true, []⟩

/-- Whether the codemod of an id takes part. -/
def includes (s : Selection) (id : String) : Bool :=
  if s.exceptions.contains id then !s.byDefault else s.byDefault

/-- The name of the default. -/
def defaultName (s : Selection) : String := if s.byDefault then "enabled" else "disabled"

/-- **The codemods that take part**, by their places in the catalog, or an
id that is not there. -/
def active (s : Selection) (catalog : Catalog) : Except String (List Nat) :=
  match s.exceptions.find? fun id => !catalog.any (·.id = id) with
  | some id => .error id
  | none => .ok ((catalog.zipIdx.filter fun (c, _) => s.includes c.id).map (·.2))

end Selection

end Remedy
