import Remedy.Codemod.Failure
import Remedy.Symbols.Table
/-!
# Codemods

A codemod knows places in a file that it can rewrite, and the new text for
each. It is a value: a catalog, a plan or a test may hold any codemods.
What it needs to be sure of it asks for by the type names of a site; where
one of these could not be resolved the site is left alone.
-/

namespace Remedy

/-- A place that a codemod can rewrite, and the type names that have to be
resolved for it. -/
structure Site where
  span : Span
  needs : List Span
deriving DecidableEq, Repr, Inhabited

/-- A new text for a span of the file. -/
structure Replacement where
  span : Span
  text : String
  description : Option String
deriving DecidableEq, Repr

/-- How a codemod fails on a site: it gives causes, the outermost first,
or it breaks down, with a word about it or without. -/
inductive Refusal where
  | causes (messages : List String)
  | breakdown (message : Option String)
deriving DecidableEq, Repr

/-- The failure that a refusal is recorded as. -/
def Refusal.toFailure : Refusal → ChangeFailure
  | .causes messages => .refused (": ".intercalate messages)
  | .breakdown message => .brokeDown (message.getD "codemod panicked")

/-- What a codemod sees: one file and the symbols of the project. -/
structure CodemodContext where
  unit : SourceUnit
  symbols : SymbolTable
deriving Repr

/-- Whether a type name stands for a type. -/
inductive TypeMatch where
  | yes
  | no
  | unknown
deriving DecidableEq, Repr

namespace CodemodContext

/-- Whether the type name at a span stands for a type. -/
def typeIs (ctx : CodemodContext) (span : Span) (fullName : String) : TypeMatch :=
  match (ctx.symbols.referenceAt? ctx.unit.path span).map Reference.resolution with
  | some (.type resolved) => if resolved = fullName then .yes else .no
  | some .typeParameter => .no
  | some (.gap _) | none => .unknown

/-- The text under a span. -/
def text (ctx : CodemodContext) (span : Span) : String := (ctx.unit.slice? span).getD ""

end CodemodContext

/-- **A codemod.** -/
structure Codemod where
  /-- The name by which it is selected and reported. -/
  id : String
  /-- The version in reports. -/
  version : String
  /-- One line for listings. -/
  summary : String
  /-- The codemod of higher priority wins where sites overlap. -/
  priority : Int
  /-- The rules whose findings it takes care of. -/
  rules : List String
  /-- It looks for sites even without a finding. -/
  scans : Bool
  /-- Its sites have type names that have to be resolved. -/
  needsResolution : Bool
  /-- It has something to do with a file. -/
  appliesTo : SourceUnit → Bool
  /-- The sites of a file, of a region if one is given. -/
  locate : CodemodContext → Option Span → List Site
  /-- The new text for a site. -/
  apply : CodemodContext → Site → Except Refusal Replacement

instance : Inhabited Codemod :=
  ⟨⟨"", "", "", 0, [], false, false, fun _ => false, fun _ _ => [], fun _ _ => .error (.causes [])⟩⟩

/-- A catalog of codemods. The order is part of its meaning: it breaks
ties. -/
abbrev Catalog := List Codemod

end Remedy
