import Remedy.Java.Grammar.Names
/-!
# Expressions

Binary operators are one level each, from `||` down to products. A name
behind parentheses is read as a cast wherever an operand follows.
-/

namespace Remedy

namespace Java

namespace Grammar

open Pattern

/-- A literal of a kind of token. -/
def literal (kind : Kind) (token : TokenKind) : P := .leaf kind fun t => t.kind == token

/-- The literals. -/
def literals : P :=
  .choice [
    literal .decimalIntegerLiteral .decimalInteger,
    literal .hexIntegerLiteral .hexInteger,
    literal .octalIntegerLiteral .octalInteger,
    literal .binaryIntegerLiteral .binaryInteger,
    literal .decimalFloatingPointLiteral .decimalFloat,
    literal .hexFloatingPointLiteral .hexFloat,
    wordAs .trueLiteral "true",
    wordAs .falseLiteral "false",
    literal .characterLiteral .charLiteral,
    literal .stringLiteral .stringLiteral,
    wordAs .nullLiteral "null"]

/-- An expression in parentheses. -/
def parenthesized : P :=
  .node .parenthesizedExpression (.seq [tok "(", ref .expression, tok ")"])

/-- The arguments of a call. -/
def argumentList : P :=
  .node .argumentList (.seq [tok "(", sepBy (ref .expression) ",", tok ")"])

/-- The values of an array. -/
def arrayInitializer : P :=
  .node .arrayInitializer (.seq [tok "\x7b",
    sepBy (.choice [ref .arrayInitializer, ref .expression]) ",", opt (tok ","), tok "\x7d"])

/-! ## Creation -/

/-- The creation of an object, from `new` on. -/
def creationBody : P :=
  .seq [tok "new",
    .choice [.seq [annotations, ref .typeArguments, annotations], annotations],
    .as .type (ref .simpleType), .as .arguments (ref .arguments), opt (ref .classBody)]

/-- The creation of an array, by its size or by its values. -/
def arrayCreation : P :=
  .node .arrayCreationExpression (.seq [tok "new", annotations, .as .type (ref .simpleType),
    .choice [
      .seq [many1 (.node .dimensionsExpr
          (.seq [annotations, tok "[", ref .expression, tok "]"])), opt (ref .dimensions)],
      .seq [ref .dimensions, ref .arrayInitializer]]])

/-! ## Primary expressions -/

/-- What follows `::`. -/
def referenceTarget : P :=
  .seq [tok "::", opt (ref .typeArguments), .choice [tok "new", anyName]]

/-- The class of a type. -/
def classLiteral : P :=
  .node .classLiteral (.seq [ref .plainType, tok ".", tok "class"])

/-- A method of a type that cannot be read as an expression. -/
def typeMethodReference : P :=
  .node .methodReference (.seq [
    .only [.genericType, .arrayType, .integralType, .floatingPointType, .booleanType, .voidType]
      (ref .plainType),
    referenceTarget])

/-- A member of the superclass. -/
def superMember : P :=
  .choice [
    .node .methodInvocation (.seq [.as .object superWord, tok ".", opt (ref .typeArguments),
      .as .name memberName, .as .arguments (ref .arguments)]),
    .node .fieldAccess (.seq [.as .object superWord, tok ".", .as .field memberName]),
    .node .methodReference (.seq [superWord, referenceTarget])]

/-- A primary expression without a continuation. -/
def primaryBase : P :=
  .choice [
    literals,
    classLiteral,
    typeMethodReference,
    thisWord,
    superMember,
    parenthesized,
    arrayCreation,
    .node .objectCreationExpression creationBody,
    .node .methodInvocation (.seq [.as .name expressionName, .as .arguments (ref .arguments)]),
    expressionName]

/-- A primary expression: members, calls, elements and references follow
each other. -/
def primary : P :=
  .nested primaryBase [
    (.objectCreationExpression, [], none, .seq [tok ".", creationBody]),
    (.methodInvocation, [], some .object, .seq [tok ".", opt (.seq [superWord, tok "."]),
      opt (ref .typeArguments), .as .name memberName, .as .arguments (ref .arguments)]),
    (.fieldAccess, [], some .object, .seq [tok ".", opt (.seq [superWord, tok "."]),
      .as .field (.choice [thisWord, memberName])]),
    (.templateExpression, [], none, .seq [tok ".", literal .stringLiteral .stringLiteral]),
    (.arrayAccess, [], none, .seq [tok "[", ref .expression, tok "]"]),
    (.methodReference, [], none, referenceTarget)]

/-! ## Operators -/

/-- What a cast applies to. -/
def castOperand : P := .choice [ref .lambda, ref .unary]

/-- A cast to one type or to several at once. -/
def cast : P :=
  .node .castExpression (.seq [tok "(", sepBy1 (.as .type (ref .type)) "&", tok ")", castOperand])

/-- A prefix operator, a cast, or a primary expression that may count up
or down. -/
def unary : P :=
  .choice [
    .node .unaryExpression (.seq [oneOf ["+", "-", "!", "~"], ref .unary]),
    .node .updateExpression (.seq [oneOf ["++", "--"], ref .unary]),
    cast,
    .nested (.choice [ref .switchExpression, ref .primary])
      [(.updateExpression, [], none, oneOf ["++", "--"])]]

/-- A level of operators that group to the left. -/
def level (operators : List String) (operand : Rule) : P :=
  .nested (ref operand)
    [(.binaryExpression, [], none, .seq [oneOf operators, ref operand])]

/-- The test of a type, which may name what it tested or take a record
apart. -/
def typeTest : P :=
  .seq [tok "instanceof", opt (tok "final"),
    .choice [ref .recordPattern,
      .seq [ref .type, opt (wordExcept .identifier ["instanceof"])]]]

/-- Comparisons and tests of a type. -/
def relation : P :=
  .nested (ref .shift) [
    (.instanceofExpression, [], none, typeTest),
    (.binaryExpression, [], none, .seq [oneOf ["<", ">", "<=", ">="], ref .shift])]

/-- A choice between two values. -/
def ternary : P :=
  .nested (ref .disjunction)
    [(.ternaryExpression, [], none, .seq [tok "?", ref .expression, tok ":", ref .expression])]

/-- The operators that assign. -/
def assignmentOperators : List String :=
  ["=", "+=", "-=", "*=", "/=", "&=", "|=", "^=", "%=", "<<=", ">>=", ">>>="]

/-- Any expression. -/
def expression : P :=
  .choice [
    ref .lambda,
    .nested (ref .ternary)
      [(.assignmentExpression, [.identifier, .fieldAccess, .arrayAccess], none,
        .seq [oneOf assignmentOperators, ref .expression])]]

/-! ## Lambdas and switches -/

/-- The annotations and keywords ahead of a declaration. `sealed` is one of
them only ahead of another or of a type. -/
def modifiers : P :=
  .node .modifiers (many1 (.choice [
    ref .annotated,
    oneOf ["public", "protected", "private", "abstract", "static", "final", "strictfp",
      "default", "synchronized", "native", "transient", "volatile"],
    .seq [tok "sealed", .ahead (.choice [tok "@", oneOf memberWords])],
    .adjacent ["non", "-", "sealed"]]))

/-- The name of a variable, with brackets behind it. -/
def variableId : P := .seq [.as .name anyName, opt (ref .dimensions)]

/-- A variable with its first value. -/
def variableDeclarator : P :=
  .node .variableDeclarator (.seq [variableId,
    opt (.seq [tok "=", .choice [ref .arrayInitializer, ref .expression]])])

/-- A parameter. -/
def formalParameter : P :=
  .choice [
    .node .spreadParameter (.seq [opt modifiers, ref .plainType, annotations, tok "...",
      variableDeclarator]),
    .node .formalParameter (.seq [opt modifiers, .as .type (ref .plainType), variableId])]

/-- The object a method is called on, written as a parameter. -/
def receiverParameter : P :=
  .node .receiverParameter (.seq [annotations, ref .plainType,
    .many (.seq [wordExcept .identifier ["this"], tok "."]), thisWord])

/-- The parameters of a method. -/
def formalParameters : P :=
  .node .formalParameters (.seq [tok "(",
    .choice [
      .seq [receiverParameter, opt (.seq [tok ",", sepBy1 formalParameter ","]), tok ")"],
      .seq [sepBy formalParameter ",", tok ")"]]])

/-- A lambda. -/
def lambda : P :=
  .node .lambdaExpression (.seq [
    .choice [
      .seq [expressionName, .ahead (tok "->")],
      .seq [.node .inferredParameters (.seq [tok "(", sepBy1 anyName ",", tok ")"]),
        .ahead (tok "->")],
      .seq [formalParameters, .ahead (tok "->")]],
    tok "->", .as .body (.choice [ref .block, ref .expression])])

/-- The components of a record pattern. -/
def recordComponent : P :=
  .choice [
    .seq [ref .recordPattern],
    .node .recordPatternComponent (.choice [
      .seq [ref .plainType, anyName],
      wordAs .underscorePattern "_"])]

/-- A record taken apart. -/
def recordPattern : P :=
  .node .recordPattern (.seq [
    .choice [.only [.genericType] (ref .simpleType), expressionName],
    .node .recordPatternBody (.seq [tok "(", sepBy recordComponent ",", tok ")"])])

/-- A pattern of a case. -/
def casePattern : P :=
  .node .pattern (.choice [
    ref .recordPattern,
    .node .typePattern (.seq [ref .plainType, wordExcept .identifier ["when"]])])

/-- What follows the label of a case. -/
def labelEnd : P := .ahead (oneOf ["->", ":", ","])

/-- The condition of a case. -/
def guard : P := .node .guard (.seq [tok "when", ref .ternary])

/-- The label of a case. Its expressions are no lambdas, since the arrow
belongs to the case. -/
def switchLabel : P :=
  .node .switchLabel (.choice [
    .seq [tok "case",
      .choice [
        .seq [casePattern, opt guard, labelEnd],
        .seq [sepBy1 (ref .ternary) ",", opt guard]]],
    .seq [tok "default", labelEnd]])

/-- A case that yields one value or runs one block. -/
def switchRule : P :=
  .node .switchRule (.seq [switchLabel, tok "->",
    .choice [
      ref .block,
      .node .throwStatement (.seq [tok "throw", ref .expression, tok ";"]),
      .node .expressionStatement (.seq [ref .expression, tok ";"])]])

/-- A case whose statements may run on into the next one. -/
def switchGroup : P :=
  .node .switchBlockStatementGroup (.seq [many1 (.seq [switchLabel, tok ":"]),
    .many (.seq [.notAhead (.choice [tok "case", .seq [tok "default", oneOf [":", "->"]]]),
      ref .statement])])

/-- A switch. -/
def switchExpression : P :=
  .node .switchExpression (.seq [tok "switch", parenthesized,
    .as .body (.node .switchBlock (.seq [tok "\x7b",
      .choice [many1 switchRule, .many switchGroup], tok "\x7d"]))])

end Grammar

end Java

end Remedy
