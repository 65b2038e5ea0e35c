import Remedy.Java.Grammar.Statements
/-!
# Declarations and the whole program

Members of a type, type declarations, packages, imports and modules. A
program is a list of statements and methods, so that pieces of code can be
read by themselves.
-/

namespace Remedy

namespace Java

namespace Grammar

open Pattern

/-! ## Members -/

/-- The exceptions a method may throw. -/
def throwsClause : P := .node .throws (.seq [tok "throws", sepBy1 (ref .type) ","])

/-- The type of a member, which no keyword of a member can be. -/
def memberType : P :=
  .seq [.notAhead (oneOf memberWords), .as .type (ref .plainType)]

/-- A method with its body, or without one. -/
def method : P :=
  .node .methodDeclaration (.seq [opt modifiers,
    opt (.seq [.as .typeParameters typeParameters, annotations]),
    memberType, .as .name anyName, formalParameters, opt (ref .dimensions), opt throwsClause,
    .choice [.as .body (ref .block), tok ";"]])

/-- The call of another constructor. -/
def constructorCall : P :=
  .node .explicitConstructorInvocation (.seq [
    .choice [
      .seq [opt (ref .typeArguments), .choice [thisWord, superWord]],
      .seq [ref .primary, tok ".", opt (ref .typeArguments), superWord]],
    .as .arguments (ref .arguments), tok ";"])

/-- The body of a constructor. -/
def constructorBody : P :=
  .node .constructorBody (.seq [tok "\x7b", opt constructorCall, .many (ref .statement),
    tok "\x7d"])

/-- A constructor. -/
def constructor : P :=
  .node .constructorDeclaration (.seq [opt modifiers, opt (.as .typeParameters typeParameters),
    .notAhead (oneOf (memberWords ++ primitiveWords)), .as .name anyName, formalParameters,
    opt throwsClause, .as .body constructorBody])

/-- A constructor of a record without parameters of its own. -/
def compactConstructor : P :=
  .node .compactConstructorDeclaration (.seq [opt modifiers,
    .notAhead (oneOf (memberWords ++ primitiveWords)), .as .name anyName,
    .as .body (ref .block)])

/-- Variables of a type; the kind tells fields from constants. -/
def variableList (kind : Kind) : P :=
  .node kind (.seq [opt modifiers, memberType, declaratorList, tok ";"])

/-- A member of a class. -/
def classMember : P :=
  .choice [
    tok ";",
    ref .block,
    .node .staticInitializer (.seq [tok "static", ref .block]),
    ref .typeDeclaration,
    method,
    constructor,
    compactConstructor,
    variableList .fieldDeclaration]

/-- The body of a class. -/
def classBody : P := .node .classBody (.seq [tok "\x7b", .many classMember, tok "\x7d"])

/-- The body of an interface. -/
def interfaceBody : P :=
  .node .interfaceBody (.seq [tok "\x7b",
    .many (.choice [tok ";", ref .typeDeclaration, method, variableList .constantDeclaration]),
    tok "\x7d"])

/-- An element of an annotation type. -/
def annotationElement : P :=
  .node .annotationTypeElementDeclaration (.seq [opt modifiers, memberType, .as .name anyName,
    tok "(", tok ")", opt (ref .dimensions), opt (.seq [tok "default", ref .elementValue]),
    tok ";"])

/-- The body of an annotation type. -/
def annotationTypeBody : P :=
  .node .annotationTypeBody (.seq [tok "\x7b",
    .many (.choice [tok ";", ref .typeDeclaration, annotationElement,
      variableList .constantDeclaration]),
    tok "\x7d"])

/-! ## Types -/

/-- The interfaces of a class. -/
def superInterfaces : P := .node .superInterfaces (.seq [tok "implements", typeList])

/-- The types that may extend a sealed one. -/
def permits : P := .node .permits (.seq [tok "permits", typeList])

/-- A class. -/
def classDeclaration : P :=
  .node .classDeclaration (.seq [opt modifiers, tok "class", .as .name anyName,
    opt (.as .typeParameters typeParameters),
    opt (.node .superclass (.seq [tok "extends", ref .type])), opt superInterfaces, opt permits,
    .as .body (ref .classBody)])

/-- An interface. -/
def interfaceDeclaration : P :=
  .node .interfaceDeclaration (.seq [opt modifiers, tok "interface", .as .name anyName,
    opt (.as .typeParameters typeParameters),
    opt (.node .extendsInterfaces (.seq [tok "extends", typeList])), opt permits,
    .as .body (ref .interfaceBody)])

/-- A constant of an enumeration. -/
def enumConstant : P :=
  .node .enumConstant (.seq [opt modifiers, .as .name anyName,
    opt (.as .arguments (ref .arguments)), opt (.as .body (ref .classBody))])

/-- An enumeration: constants, then members behind a semicolon. -/
def enumDeclaration : P :=
  .node .enumDeclaration (.seq [opt modifiers, tok "enum", .as .name anyName,
    opt superInterfaces,
    .as .body (.node .enumBody (.seq [tok "\x7b", sepBy enumConstant ",", opt (tok ","),
      opt (.node .enumBodyDeclarations (.seq [tok ";", .many classMember])), tok "\x7d"]))])

/-- A record. -/
def recordDeclaration : P :=
  .node .recordDeclaration (.seq [opt modifiers, tok "record", .as .name anyName,
    opt (.as .typeParameters typeParameters), formalParameters, opt superInterfaces,
    .as .body (ref .classBody)])

/-- An annotation type. -/
def annotationTypeDeclaration : P :=
  .node .annotationTypeDeclaration (.seq [opt modifiers, .adjacent ["@", "interface"],
    .as .name anyName, .as .body (ref .annotationTypeBody)])

/-- The declaration of a type. -/
def typeDeclaration : P :=
  .choice [classDeclaration, interfaceDeclaration, enumDeclaration, recordDeclaration,
    annotationTypeDeclaration]

/-! ## Packages, imports and modules -/

/-- The package of a file. -/
def packageDeclaration : P :=
  .node .packageDeclaration (.seq [annotations, tok "package", qualifiedName, tok ";"])

/-- An import of one name or of all names below it. -/
def importDeclaration : P :=
  .node .importDeclaration (.seq [tok "import", opt (tok "static"), qualifiedName,
    opt (.seq [tok ".", .leaf .asterisk fun t => t.kind == .sign && t.text == "*"]), tok ";"])

/-- A list of module names behind a keyword. -/
def moduleNames (word : String) : P := .seq [tok word, sepBy1 qualifiedName ","]

/-- One line of a module. -/
def moduleDirective : P :=
  .choice [
    .node .requiresModuleDirective (.seq [tok "requires",
      .many (.choice [
        .seq [.node .requiresModifier (tok "transitive"), .notAhead (tok ";")],
        .node .requiresModifier (tok "static")]),
      qualifiedName, tok ";"]),
    .node .exportsModuleDirective (.seq [tok "exports", qualifiedName, opt (moduleNames "to"),
      tok ";"]),
    .node .opensModuleDirective (.seq [tok "opens", qualifiedName, opt (moduleNames "to"),
      tok ";"]),
    .node .usesModuleDirective (.seq [tok "uses", qualifiedName, tok ";"]),
    .node .providesModuleDirective (.seq [tok "provides", qualifiedName, moduleNames "with",
      tok ";"])]

/-- A module. -/
def moduleDeclaration : P :=
  .node .moduleDeclaration (.seq [annotations, opt (tok "open"), tok "module",
    .as .name qualifiedName,
    .as .body (.node .moduleBody (.seq [tok "\x7b", .many moduleDirective, tok "\x7d"]))])

/-- A whole file. -/
def program : P :=
  .node .program (.many (.choice [packageDeclaration, importDeclaration, moduleDeclaration,
    ref .statement, method]))

end Grammar

/-- **The grammar**: what each rule stands for. -/
def grammar : Rule → Pattern Rule
  | .annotated => Grammar.annotated
  | .elementValue => Grammar.elementValue
  | .type => Grammar.type
  | .plainType => Grammar.plainType
  | .simpleType => Grammar.simpleType
  | .typeArguments => Grammar.typeArguments
  | .dimensions => Grammar.dimensions
  | .expression => Grammar.expression
  | .ternary => Grammar.ternary
  | .disjunction => Grammar.level ["||"] .conjunction
  | .conjunction => Grammar.level ["&&"] .bitOr
  | .bitOr => Grammar.level ["|"] .bitXor
  | .bitXor => Grammar.level ["^"] .bitAnd
  | .bitAnd => Grammar.level ["&"] .equality
  | .equality => Grammar.level ["==", "!="] .relation
  | .relation => Grammar.relation
  | .shift => Grammar.level ["<<", ">>", ">>>"] .sum
  | .sum => Grammar.level ["+", "-"] .product
  | .product => Grammar.level ["*", "/", "%"] .unary
  | .unary => Grammar.unary
  | .primary => Grammar.primary
  | .lambda => Grammar.lambda
  | .arguments => Grammar.argumentList
  | .arrayInitializer => Grammar.arrayInitializer
  | .switchExpression => Grammar.switchExpression
  | .recordPattern => Grammar.recordPattern
  | .statement => Grammar.statement
  | .block => Grammar.block
  | .localVariable => Grammar.localVariable
  | .classBody => Grammar.classBody
  | .interfaceBody => Grammar.interfaceBody
  | .annotationTypeBody => Grammar.annotationTypeBody
  | .typeDeclaration => Grammar.typeDeclaration

end Java

end Remedy
