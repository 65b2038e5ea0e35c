import Remedy.Java.Pattern
/-!
# Rules of the grammar, names and types

The rules that refer to each other are listed in `Rule`. A word is a
keyword only where the grammar asks for that keyword, so a name may be any
word that no other reading of the place claims.
-/

namespace Remedy

namespace Java

/-- The pieces of syntax that contain each other. -/
inductive Rule where
  | annotated
  | elementValue
  | type
  | plainType
  | simpleType
  | typeArguments
  | dimensions
  | expression
  | ternary
  | disjunction
  | conjunction
  | bitOr
  | bitXor
  | bitAnd
  | equality
  | relation
  | shift
  | sum
  | product
  | unary
  | primary
  | lambda
  | arguments
  | arrayInitializer
  | switchExpression
  | recordPattern
  | statement
  | block
  | localVariable
  | classBody
  | interfaceBody
  | annotationTypeBody
  | typeDeclaration
deriving DecidableEq, Repr

namespace Grammar

open Pattern

/-- A piece of Java syntax. -/
abbrev P := Pattern Rule

/-- Another rule. -/
def ref (r : Rule) : P := .rule r

/-- A keyword or a sign. -/
def tok (text : String) : P := .token text

/-- The keywords of primitive types. -/
def primitiveWords : List String :=
  ["void", "byte", "short", "int", "long", "char", "float", "double", "boolean"]

/-- The words that an expression may start with and that name nothing. -/
def expressionWords : List String :=
  primitiveWords ++ ["new", "this", "super", "true", "false", "null", "switch"]

/-- The words that only a statement or a declaration starts with. -/
def statementWords : List String :=
  ["assert", "break", "class", "continue", "do", "enum", "for", "if", "import", "interface",
   "package", "return", "synchronized", "throw", "try", "while", "abstract", "default", "final",
   "native", "private", "protected", "public", "static", "strictfp", "transient", "volatile"]

/-- The words that a member of a type may start with and that name no
type. -/
def memberWords : List String :=
  ["class", "enum", "interface", "abstract", "default", "final", "native", "private",
   "protected", "public", "static", "strictfp", "synchronized", "transient", "volatile"]

/-- Any word as a name. -/
def anyName : P := wordExcept .identifier []

/-- A name in an expression. -/
def expressionName : P := wordExcept .identifier expressionWords

/-- A name behind a point. -/
def memberName : P := wordExcept .identifier ["new", "super", "class", "this"]

/-- A name with any number of names behind points, as in a package. -/
def qualifiedName : P :=
  .nested (wordExcept .identifier ["static"])
    [(.scopedIdentifier, [], none, .seq [tok ".", anyName])]

/-! ## Annotations -/

/-- One member of the arguments of an annotation. -/
def elementValuePair : P :=
  .node .elementValuePair (.seq [anyName, tok "=", ref .elementValue])

/-- The arguments of an annotation. -/
def annotationArguments : P :=
  .node .annotationArgumentList (.seq [tok "(",
    .choice [.seq [sepBy1 elementValuePair ",", tok ")"],
      .seq [ref .elementValue, tok ")"],
      tok ")"]])

/-- An annotation, with or without arguments. -/
def annotated : P :=
  .seq [.notAhead (.adjacent ["@", "interface"]),
    .choice [
      .node .annotationWith (.seq [tok "@", .as .name qualifiedName,
        .as .arguments annotationArguments]),
      .node .annotationMarker (.seq [tok "@", .as .name qualifiedName])]]

/-- A value in an annotation: an expression, a list in braces, or an
annotation. -/
def elementValue : P :=
  .choice [
    .node .elementValueArrayInitializer (.seq [tok "\x7b", sepBy (ref .elementValue) ",",
      opt (tok ","), tok "\x7d"]),
    ref .annotated,
    ref .expression]

/-- Any number of annotations. -/
def annotations : P := .many (ref .annotated)

/-! ## Types -/

/-- A primitive type, or `void`. -/
def primitiveType : P :=
  .choice [wordAs .voidType "void", wordAs .booleanType "boolean",
    .leaf .integralType fun t => ["byte", "short", "int", "long", "char"].contains t.text,
    .leaf .floatingPointType fun t => ["float", "double"].contains t.text]

/-- The name of a type. -/
def typeName : P := wordExcept .typeIdentifier primitiveWords

/-- The name of a type behind a point. -/
def memberTypeName : P := wordExcept .typeIdentifier ["new", "super", "class", "this"]

/-- A type that is no array: a primitive one, or a name with points and
type arguments. -/
def simpleType : P :=
  .choice [primitiveType,
    .nested typeName [
      (.genericType, [.typeIdentifier, .scopedTypeIdentifier], none, ref .typeArguments),
      (.scopedTypeIdentifier, [], none, .seq [tok ".", annotations, memberTypeName])]]

/-- Pairs of brackets, each with annotations ahead of it. -/
def dimensions : P :=
  .node .dimensions (many1 (.seq [annotations, tok "[", tok "]"]))

/-- A type without annotations ahead of it. -/
def plainType : P :=
  .nested (ref .simpleType) [(.arrayType, [], none, ref .dimensions)]

/-- A type. -/
def type : P :=
  .choice [.node .annotatedType (.seq [many1 (ref .annotated), ref .plainType]), ref .plainType]

/-- The keyword `super` as a tree. -/
def superWord : P := wordAs .super "super"

/-- The keyword `this` as a tree. -/
def thisWord : P := wordAs .this "this"

/-- A type argument left open. -/
def wildcard : P :=
  .node .wildcard (.seq [annotations, tok "?",
    opt (.choice [.seq [tok "extends", ref .type], .seq [superWord, ref .type]])])

/-- The type arguments of a type or a call; there may be none in them. -/
def typeArguments : P :=
  .node .typeArguments (.seq [tok "<", sepBy (.choice [wildcard, ref .type]) ",", .closeAngle])

/-- What a type parameter is bounded by. -/
def typeBound : P :=
  .node .typeBound (.seq [tok "extends", sepBy1 (ref .type) "&"])

/-- The type parameters of a declaration. -/
def typeParameters : P :=
  .node .typeParameters (.seq [tok "<",
    sepBy1 (.node .typeParameter
      (.seq [annotations, wordExcept .typeIdentifier [], opt typeBound])) ",",
    .closeAngle])

/-- A list of types. -/
def typeList : P := .node .typeList (sepBy1 (ref .type) ",")

end Grammar

end Java

end Remedy
