import Remedy.Java.Cursor
import Remedy.Path.Basic
import Remedy.Text.Blank
/-!
# The outline of a file

What one Java file says by itself: its package, its imports, the types and
members it declares with the scopes of their names, and the type names it
refers to. Resolving those names takes the outlines of all files.
-/

namespace Remedy

/-- What a declaration declares. -/
inductive DeclarationKind where
  | classType
  | interface
  | enum
  | record
  | annotationType
  | method
  | field
deriving DecidableEq, Repr

namespace DeclarationKind

/-- The name of the kind. -/
def name : DeclarationKind → String
  | .classType => "class"
  | .interface => "interface"
  | .enum => "enum"
  | .record => "record"
  | .annotationType => "annotation"
  | .method => "method"
  | .field => "field"

/-- The kind of type that a tree declares. -/
def ofType? : Java.Kind → Option DeclarationKind
  | .classDeclaration => some .classType
  | .interfaceDeclaration => some .interface
  | .enumDeclaration => some .enum
  | .recordDeclaration => some .record
  | .annotationTypeDeclaration => some .annotationType
  | _ => none

end DeclarationKind

/-- A declared name. A member is called after its type, as in `p.Type#name`. -/
structure Declaration where
  name : String
  kind : DeclarationKind
  path : Path
  span : Span
deriving DecidableEq, Repr

/-- A type of the file: its simple and its full name, and where the simple
name is visible. -/
structure LocalType where
  simple : String
  fullName : String
  scope : Span
  topLevel : Bool
deriving DecidableEq, Repr

/-- A type parameter and where its name is visible. -/
structure TypeParameter where
  name : String
  scope : Span
deriving DecidableEq, Repr

/-- A type name as written, without white space in it. -/
structure NameUse where
  name : String
  span : Span
deriving DecidableEq, Repr

/-- One thing that a declaration contributes to the outline. -/
inductive OutlineEntry where
  | localType (t : LocalType)
  | typeParameter (p : TypeParameter)
  | declaration (d : Declaration)
deriving Repr

/-- What an import brings into the file. -/
inductive Import where
  | single (simple fullName : String)
  | onDemand (package : String)
deriving DecidableEq, Repr

/-- The outline of a file. -/
structure Outline where
  path : Path
  package : String
  imports : List Import
  entries : List OutlineEntry
  uses : List NameUse
deriving Repr

namespace Outline

/-- The types that the file declares. -/
def types (o : Outline) : List LocalType :=
  o.entries.filterMap fun | .localType t => some t | _ => none

/-- The type parameters that the file declares. -/
def typeParameters (o : Outline) : List TypeParameter :=
  o.entries.filterMap fun | .typeParameter p => some p | _ => none

/-- The declarations of the file. -/
def declarations (o : Outline) : List Declaration :=
  o.entries.filterMap fun | .declaration d => some d | _ => none

/-- The full name that a single import gives to a simple one. Of several
ones for a name the first counts. -/
def imported? (o : Outline) (simple : String) : Option String :=
  o.imports.findSome? fun
    | .single s fullName => if s = simple then some fullName else none
    | .onDemand _ => none

/-- The packages and types whose members are imported on demand. -/
def onDemand (o : Outline) : List String :=
  o.imports.filterMap fun | .onDemand p => some p | _ => none

/-- A name without its white space. -/
def stripBlanks (text : String) : String := String.ofList (text.toList.filter fun c => !isBlank c)

/-- A name below another one. -/
def joinNames (above name : String) : String :=
  if above.isEmpty then name else above ++ "." ++ name

/-- What stands behind the last point of a name. -/
def lastName (name : String) : String :=
  String.ofList (name.toList.reverse.takeWhile (· ≠ '.')).reverse

/-! ## Package and imports -/

/-- The qualified name below a package or an import. -/
def qualifiedName? (source : String) (t : Java.Tree) : Option String :=
  (t.namedChildren.find? fun c => c.kind = .identifier ∨ c.kind = .scopedIdentifier).map
    fun c => stripBlanks (c.text source)

/-- The import that a tree declares. A static import of one member brings
in no type; one of all members brings in the types among them. -/
def importOf? (source : String) (t : Java.Tree) : Option Import := do
  let name ← qualifiedName? source t
  let kinds := t.children.map Java.Tree.kind
  if .asterisk ∈ kinds then some (.onDemand name)
  else if .sign "static" ∈ kinds then none
  else some (.single (lastName name) name)

/-- The package of a file: that of its last package declaration. -/
def packageOf (source : String) (top : List Java.Tree) : String :=
  ((top.filter (·.kind = .packageDeclaration)).filterMap (qualifiedName? source)).getLast?.getD ""

/-! ## Declarations -/

/-- Where a list of members stands: the file, the name and the scope
around it, and whether it is the file itself. -/
structure Context where
  path : Path
  source : String
  above : String
  scope : Span
  topLevel : Bool

/-- The type parameters that a tree declares, visible in all of it. -/
def typeParametersOf (source : String) (t : Java.Tree) : List OutlineEntry :=
  match t.child? .typeParameters with
  | none => []
  | some parameters =>
    (parameters.namedChildren.filter (·.kind = .typeParameter)).filterMap fun p =>
      (p.namedChildren.find? fun c => c.kind = .typeIdentifier ∨ c.kind = .identifier).map
        fun name => .typeParameter ⟨name.text source, t.span⟩

/-- The member that a name declares. -/
def member (ctx : Context) (kind : DeclarationKind) (name : Java.Tree) : OutlineEntry :=
  .declaration ⟨ctx.above ++ "#" ++ name.text ctx.source, kind, ctx.path, name.span⟩

/-- The method that a tree declares. -/
def methodOf (ctx : Context) (t : Java.Tree) : List OutlineEntry :=
  typeParametersOf ctx.source t ++ ((t.child? .name).map (member ctx .method)).toList

/-- The fields that a tree declares. -/
def fieldsOf (ctx : Context) (t : Java.Tree) : List OutlineEntry :=
  (t.childrenAs .declarator).filterMap fun d => (d.child? .name).map (member ctx .field)

/-- The type that a tree declares, by its name. -/
def typeOf (ctx : Context) (kind : DeclarationKind) (t name : Java.Tree) : List OutlineEntry :=
  let simple := name.text ctx.source
  let fullName := joinNames ctx.above simple
  typeParametersOf ctx.source t ++
    [.localType ⟨simple, fullName, ctx.scope, ctx.topLevel⟩,
     .declaration ⟨fullName, kind, ctx.path, name.span⟩]

mutual

/-- The entries of one member. Only bodies of types are entered, and the
part of an enumeration behind its constants. -/
def entriesOf (ctx : Context) : Java.Tree → List OutlineEntry
  | .node kind span parts =>
    let t := Java.Tree.node kind span parts
    match DeclarationKind.ofType? kind with
    | some declared =>
      match t.child? .name with
      | none => []
      | some name =>
        let inner : Context :=
          { ctx with above := joinNames ctx.above (name.text ctx.source), scope := span,
                     topLevel := false }
        typeOf ctx declared t name ++ bodyEntries inner parts
    | none =>
      match kind with
      | .methodDeclaration | .constructorDeclaration => methodOf ctx t
      | .fieldDeclaration | .constantDeclaration => fieldsOf ctx t
      | .enumBodyDeclarations => memberEntries { ctx with topLevel := false } parts
      | _ => []

/-- The entries of the body among the parts of a type. -/
def bodyEntries (ctx : Context) : List (Option Java.Role × Java.Tree) → List OutlineEntry
  | [] => []
  | (role, .node _ _ inner) :: rest =>
    if role = some .body then memberEntries ctx inner else bodyEntries ctx rest

/-- The entries of a list of members. -/
def memberEntries (ctx : Context) : List (Option Java.Role × Java.Tree) → List OutlineEntry
  | [] => []
  | (_, t) :: rest =>
    (if t.kind.isNamed then entriesOf ctx t else []) ++ memberEntries ctx rest

end

/-! ## References -/

/-- A name written like that of a type, not of a constant or a variable: it
starts with a capital letter and has a small one. -/
def looksLikeType (name : String) : Bool :=
  match name.toList with
  | c :: cs => c.isUpper && (c :: cs).any Char.isLower
  | [] => false

/-- Names with points whose parts look like packages: the first starts
with a small letter, the others do not look like types. -/
def isPackageChain (source : String) (fuel : Nat) (t : Java.Tree) : Bool :=
  match fuel with
  | 0 => false
  | fuel + 1 =>
    match t.kind with
    | .identifier => (t.text source).toList.head?.any Char.isLower
    | .fieldAccess =>
      match t.child? .object, t.child? .field with
      | some object, some field =>
        field.kind = .identifier && !looksLikeType (field.text source) &&
          isPackageChain source fuel object
      | _, _ => false
    | _ => false

/-- The type that the object of a call or of a member access names: a
single name that looks like a type, or a package with a type behind it. -/
def objectUse? (source : String) (t : Java.Tree) : Option NameUse := do
  let object ← t.child? .object
  match object.kind with
  | .identifier =>
    let name := object.text source
    if looksLikeType name then some ⟨name, object.span⟩ else none
  | .fieldAccess =>
    if t.kind = .fieldAccess then
      let field ← t.child? .field
      if looksLikeType (field.text source) && isPackageChain source object.size object then
        some ⟨stripBlanks (t.text source), t.span⟩
      else none
    else none
  | _ => none

/-- The type name used at a tree whose parent is of a given kind. -/
def useAt? (source : String) (parent : Option Java.Kind) (t : Java.Tree) : Option NameUse :=
  match t.kind with
  | .typeIdentifier =>
    if parent = some .scopedTypeIdentifier ∨ parent = some .typeParameter then none
    else
      let name := t.text source
      if name = "var" then none else some ⟨name, t.span⟩
  | .scopedTypeIdentifier =>
    if parent = some .scopedTypeIdentifier then none
    else
      let raw := t.text source
      if '@' ∈ raw.toList then none else some ⟨stripBlanks raw, t.span⟩
  | .methodInvocation | .fieldAccess => objectUse? source t
  | _ => none

/-- The type names used in a tree. -/
def usesIn (source : String) (c : Java.Cursor) : List NameUse :=
  c.descendants.filterMap fun d => useAt? source d.parentKind? d.focus

/-- **The outline of a file** with a given text and tree. -/
def ofTree (path : Path) (source : String) (root : Java.Tree) : Outline :=
  let top := root.namedChildren
  let package := packageOf source top
  let imports := (top.filter (·.kind = .importDeclaration)).filterMap (importOf? source)
  let ctx : Context := ⟨path, source, package, ⟨0, source.utf8ByteSize⟩, true⟩
  let code := (Java.Cursor.ofTree root).children.filter fun c =>
    c.focus.kind.isNamed && c.focus.kind ≠ .packageDeclaration &&
      c.focus.kind ≠ .importDeclaration
  ⟨path, package, imports, memberEntries ctx root.parts, code.flatMap (usesIn source)⟩

end Outline

end Remedy
