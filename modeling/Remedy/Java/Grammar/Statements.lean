import Remedy.Java.Grammar.Expressions
/-!
# Statements

A word that only a statement starts with never names a variable or a type
at the start of a statement. Declarations of variables are tried before
expressions, so `a < b > c` declares `c`.
-/

namespace Remedy

namespace Java

namespace Grammar

open Pattern

/-- Statements in braces. -/
def block : P := .node .block (.seq [tok "\x7b", .many (ref .statement), tok "\x7d"])

/-- Variables of one type with their first values. -/
def declaratorList : P := sepBy1 (.as .declarator variableDeclarator) ","

/-- The declaration of local variables. -/
def localVariable : P :=
  .node .localVariableDeclaration (.seq [opt modifiers, .notAhead (oneOf statementWords),
    .as .type (ref .plainType), declaratorList, tok ";"])

/-- An expression with its semicolon. -/
def expressionStatement : P :=
  .node .expressionStatement (.seq [.notAhead (oneOf statementWords), ref .expression, tok ";"])

/-- A jump with an optional label. -/
def jump (kind : Kind) (word : String) : P :=
  .node kind (.seq [tok word, opt anyName, tok ";"])

/-- A clause for one kind of exception, or for several. -/
def catchClause : P :=
  .node .catchClause (.seq [tok "catch", tok "(",
    .node .catchFormalParameter (.seq [opt modifiers,
      .node .catchType (sepBy1 (ref .plainType) "|"), variableId]),
    tok ")", .as .body (ref .block)])

/-- The clause that always runs. -/
def finallyClause : P := .node .finallyClause (.seq [tok "finally", ref .block])

/-- A resource: a declared one, or one that is named. -/
def resource : P :=
  .node .resource (.choice [
    .seq [opt modifiers, .as .type (ref .plainType), variableId, tok "=", ref .expression],
    .only [.identifier, .fieldAccess] (ref .primary)])

/-- A block that is tried. -/
def tryStatement : P :=
  .choice [
    .node .tryStatement (.seq [tok "try", .as .body (ref .block),
      .choice [.seq [.many catchClause, finallyClause], many1 catchClause]]),
    .node .tryWithResourcesStatement (.seq [tok "try",
      .node .resourceSpecification (.seq [tok "(", sepBy1 resource ";", opt (tok ";"), tok ")"]),
      .as .body (ref .block), .many catchClause, opt finallyClause])]

/-- A loop over a counter or over a collection. -/
def forStatement : P :=
  .choice [
    .node .enhancedForStatement (.seq [tok "for", tok "(", opt modifiers,
      .as .type (ref .plainType), variableId, tok ":", ref .expression, tok ")",
      .as .body (ref .statement)]),
    .node .forStatement (.seq [tok "for", tok "(",
      .choice [ref .localVariable, .seq [sepBy (ref .expression) ",", tok ";"]],
      opt (ref .expression), tok ";", sepBy (ref .expression) ",", tok ")",
      .as .body (ref .statement)])]

/-- The statements that start with a keyword of their own. -/
def keywordStatement : P :=
  .choice [
    .node .ifStatement (.seq [tok "if", parenthesized, ref .statement,
      opt (.seq [tok "else", ref .statement])]),
    .node .whileStatement (.seq [tok "while", parenthesized, .as .body (ref .statement)]),
    forStatement,
    .node .doStatement (.seq [tok "do", .as .body (ref .statement), tok "while", parenthesized,
      tok ";"]),
    tryStatement,
    ref .switchExpression,
    .node .synchronizedStatement (.seq [tok "synchronized", parenthesized,
      .as .body (ref .block)]),
    .node .returnStatement (.seq [tok "return", opt (ref .expression), tok ";"]),
    .node .throwStatement (.seq [tok "throw", ref .expression, tok ";"]),
    jump .breakStatement "break",
    jump .continueStatement "continue",
    .node .assertStatement (.seq [tok "assert", ref .expression,
      opt (.seq [tok ":", ref .expression]), tok ";"]),
    .node .yieldStatement (.seq [tok "yield", ref .expression, tok ";"])]

/-- Any statement. -/
def statement : P :=
  .choice [
    tok ";",
    ref .block,
    .seq [keywordStatement],
    ref .typeDeclaration,
    .node .labeledStatement (.seq [.notAhead (oneOf statementWords), expressionName, tok ":",
      ref .statement]),
    ref .localVariable,
    expressionStatement]

end Grammar

end Java

end Remedy
