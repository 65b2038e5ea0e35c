import Remedy.Json.Place
import Remedy.Source.Unit
import Remedy.Symbols.Outline
import Remedy.Symbols.Platform
/-!
# The symbol table

All outlines together resolve the type names of each file. A name is
looked up among type parameters, types of the file, single imports, the
package of the file, and last among imports on demand and `java.lang`
together. A name that is not found, or found more than once in that last
step, is a gap: what depends on it is skipped and never guessed.
-/

namespace Remedy

/-- Why a name could not be bound to one type. -/
inductive GapReason where
  | unresolved
  | ambiguous (candidates : List String)
deriving DecidableEq, Repr

/-- What a type name stands for. -/
inductive Resolution where
  | type (fullName : String)
  | typeParameter
  | gap (reason : GapReason)
deriving DecidableEq, Repr

/-- A type name with what it stands for. -/
structure Reference where
  name : String
  span : Span
  resolution : Resolution
deriving DecidableEq, Repr

/-- A type name that could not be bound. -/
structure ResolutionGap where
  path : Path
  span : Span
  name : String
  reason : GapReason
deriving DecidableEq, Repr

/-- A reason as a document. -/
def GapReason.toJson : GapReason → Json
  | .unresolved => .object [("kind", .string "unresolved")]
  | .ambiguous candidates =>
    .object [("kind", .string "ambiguous"), ("candidates", Json.strings candidates)]

/-- A gap as a document. -/
def ResolutionGap.toJson (gap : ResolutionGap) : Json :=
  .object [("path", .string gap.path.text), ("span", gap.span.toJson), ("name", .string gap.name),
    ("reason", gap.reason.toJson)]

namespace Resolution

/-- The reason why a name could not be bound. -/
def gap? : Resolution → Option GapReason
  | .gap reason => some reason
  | _ => none

/-- The first top-level type of a package with a simple name. -/
def topLevel? (outlines : List Outline) (package simple : String) : Option String :=
  (outlines.filter (·.package = package)).findSome? fun o =>
    (o.types.find? fun t => t.topLevel && t.simple = simple).map LocalType.fullName

/-- Whether a full name is that of a type of the project. -/
def isProjectType (outlines : List Outline) (fullName : String) : Bool :=
  outlines.any fun o => o.types.any (·.fullName = fullName)

/-- The smaller of two scopes, the first of two equal ones. -/
def narrower (a b : LocalType) : LocalType :=
  if b.scope.length < a.scope.length then b else a

/-- The type of the file whose scope around a place is the smallest. -/
def localType? (o : Outline) (name : String) (place : Span) : Option LocalType :=
  match o.types.filter fun t => t.simple = name && t.scope.contains place with
  | [] => none
  | t :: ts => some (ts.foldl narrower t)

/-- Puts a text into a sorted list without repetition. -/
def insertText (s : String) : List String → List String
  | [] => [s]
  | t :: ts => if s = t then t :: ts else if s < t then s :: t :: ts else t :: insertText s ts

/-- The types that imports on demand and `java.lang` offer for a name. -/
def candidates (outlines : List Outline) (o : Outline) (name : String) : List String :=
  let found (package : String) : Option String :=
    let fullName := Outline.joinNames package name
    if isProjectType outlines fullName || Platform.contains? package name = some true then
      some fullName
    else none
  ((o.onDemand ++ ["java.lang"]).filterMap found).foldl (fun done s => insertText s done) []

/-- **What a name without points stands for at a place.** -/
def ofSimple (outlines : List Outline) (o : Outline) (name : String) (place : Span) :
    Resolution :=
  if o.typeParameters.any fun p => p.name = name && p.scope.contains place then .typeParameter
  else
    match localType? o name place with
    | some t => .type t.fullName
    | none =>
      match o.imported? name with
      | some fullName => .type fullName
      | none =>
        match topLevel? outlines o.package name with
        | some fullName => .type fullName
        | none =>
          match candidates outlines o name with
          | [] => .gap .unresolved
          | [fullName] => .type fullName
          | several => .gap (.ambiguous several)

/-- **What a name stands for at a place.** A name whose first part starts
with a small letter is full already; otherwise its first part is looked up
and the rest follows. -/
def ofName (outlines : List Outline) (o : Outline) (name : String) (place : Span) : Resolution :=
  let chars := name.toList
  let first := chars.takeWhile (· ≠ '.')
  match chars.drop first.length with
  | [] => ofSimple outlines o name place
  | rest =>
    if first.head?.any Char.isLower then .type name
    else
      match ofSimple outlines o (String.ofList first) place with
      | .type fullName => .type (fullName ++ String.ofList rest)
      | .typeParameter => .gap .unresolved
      | .gap reason => .gap reason

end Resolution

/-- The references of one file, in order of their spans, each span once. -/
abbrev FileReferences := List Reference

namespace Reference

/-- Drops all but the first of references that follow each other at one
span. -/
def distinct : List Reference → List Reference
  | a :: b :: rest => if a.span = b.span then distinct (a :: rest) else a :: distinct (b :: rest)
  | refs => refs
termination_by refs => refs.length

/-- The references of an outline. -/
def ofOutline (outlines : List Outline) (o : Outline) : FileReferences :=
  let resolved := o.uses.map fun u =>
    (⟨u.name, u.span, Resolution.ofName outlines o u.name u.span⟩ : Reference)
  distinct (resolved.mergeSort fun a b => a.span.le b.span)

end Reference

/-- The declarations and references of a project. Of two declarations of
one name the first counts; of two files at one path the references of the
last. -/
structure SymbolTable where
  declarations : List Declaration
  files : List (Path × FileReferences)
deriving Repr, Inhabited

/-- What a table holds, in numbers. -/
structure SymbolStats where
  files : Nat
  declarations : Nat
  references : Nat
  resolved : Nat
  gaps : Nat
deriving DecidableEq, Repr

namespace SymbolTable

/-- Puts a declaration in its place by name, unless the name is there. -/
def insertDeclaration (d : Declaration) : List Declaration → List Declaration
  | [] => [d]
  | e :: es =>
    if d.name = e.name then e :: es
    else if d.name < e.name then d :: e :: es
    else e :: insertDeclaration d es

/-- Enters the references of a file, in place of any at the same path. -/
def insertFile (path : Path) (refs : FileReferences) :
    List (Path × FileReferences) → List (Path × FileReferences)
  | [] => [(path, refs)]
  | (p, old) :: rest =>
    if p.same path then (p, refs) :: rest else (p, old) :: insertFile path refs rest

/-- The outline of a unit that has a tree. -/
def outline? (unit : SourceUnit) : Option Outline :=
  unit.tree?.map fun tree => Outline.ofTree unit.path unit.text tree

/-- **The table of a project.** -/
def build (units : List SourceUnit) : SymbolTable :=
  let outlines := units.filterMap outline?
  { declarations := (outlines.flatMap Outline.declarations).foldl
      (fun done d => insertDeclaration d done) []
    files := outlines.foldl
      (fun done o => insertFile o.path (Reference.ofOutline outlines o) done) [] }

/-- The references of a file. -/
def references (table : SymbolTable) (path : Path) : FileReferences :=
  ((table.files.find? fun (p, _) => p.same path).map (·.2)).getD []

/-- The reference that covers a span exactly. -/
def referenceAt? (table : SymbolTable) (path : Path) (span : Span) : Option Reference :=
  (table.references path).find? (·.span = span)

/-- The gap that a reference is, if it is one. -/
def gapOf? (path : Path) (r : Reference) : Option ResolutionGap :=
  r.resolution.gap?.map fun reason => ⟨path, r.span, r.name, reason⟩

/-- The gaps of a file. -/
def gaps (table : SymbolTable) (path : Path) : List ResolutionGap :=
  (table.references path).filterMap (gapOf? path)

/-- The numbers of a table. -/
def stats (table : SymbolTable) : SymbolStats :=
  let refs := table.files.flatMap (·.2)
  let gaps := refs.filter fun r => r.resolution.gap?.isSome
  { files := table.files.length
    declarations := table.declarations.length
    references := refs.length
    resolved := (refs.filter fun r => r.resolution.gap?.isNone).length
    gaps := gaps.length }

end SymbolTable

end Remedy
