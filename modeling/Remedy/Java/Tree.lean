import Remedy.Text.Slice
/-!
# Java syntax trees

A tree has a kind, a byte span and children, some of which play a named
role in their parent. Keywords and signs are leaves of kind `sign`; all
other kinds are named. Comments are leaves between the children of the
innermost tree around them.
-/

namespace Remedy

namespace Java

/-- The kinds of tree. -/
inductive Kind where
  | sign (text : String)
  | lineComment
  | blockComment
  | program
  | identifier
  | scopedIdentifier
  | asterisk
  | decimalIntegerLiteral
  | hexIntegerLiteral
  | octalIntegerLiteral
  | binaryIntegerLiteral
  | decimalFloatingPointLiteral
  | hexFloatingPointLiteral
  | trueLiteral
  | falseLiteral
  | nullLiteral
  | characterLiteral
  | stringLiteral
  | this
  | super
  | typeIdentifier
  | scopedTypeIdentifier
  | genericType
  | arrayType
  | annotatedType
  | voidType
  | integralType
  | floatingPointType
  | booleanType
  | typeArguments
  | wildcard
  | dimensions
  | dimensionsExpr
  | typeParameters
  | typeParameter
  | typeBound
  | typeList
  | assignmentExpression
  | binaryExpression
  | instanceofExpression
  | lambdaExpression
  | inferredParameters
  | ternaryExpression
  | unaryExpression
  | updateExpression
  | castExpression
  | switchExpression
  | parenthesizedExpression
  | objectCreationExpression
  | arrayCreationExpression
  | fieldAccess
  | arrayAccess
  | methodInvocation
  | methodReference
  | classLiteral
  | templateExpression
  | argumentList
  | arrayInitializer
  | switchBlock
  | switchBlockStatementGroup
  | switchRule
  | switchLabel
  | guard
  | pattern
  | typePattern
  | recordPattern
  | recordPatternBody
  | recordPatternComponent
  | underscorePattern
  | block
  | expressionStatement
  | labeledStatement
  | ifStatement
  | whileStatement
  | forStatement
  | enhancedForStatement
  | doStatement
  | assertStatement
  | breakStatement
  | continueStatement
  | returnStatement
  | yieldStatement
  | synchronizedStatement
  | throwStatement
  | tryStatement
  | tryWithResourcesStatement
  | resourceSpecification
  | resource
  | catchClause
  | catchFormalParameter
  | catchType
  | finallyClause
  | localVariableDeclaration
  | annotationMarker
  | annotationWith
  | annotationArgumentList
  | elementValuePair
  | elementValueArrayInitializer
  | moduleDeclaration
  | moduleBody
  | requiresModuleDirective
  | requiresModifier
  | exportsModuleDirective
  | opensModuleDirective
  | usesModuleDirective
  | providesModuleDirective
  | packageDeclaration
  | importDeclaration
  | modifiers
  | classDeclaration
  | classBody
  | superclass
  | superInterfaces
  | permits
  | staticInitializer
  | constructorDeclaration
  | constructorBody
  | explicitConstructorInvocation
  | compactConstructorDeclaration
  | fieldDeclaration
  | variableDeclarator
  | methodDeclaration
  | formalParameters
  | formalParameter
  | spreadParameter
  | receiverParameter
  | throws
  | enumDeclaration
  | enumBody
  | enumBodyDeclarations
  | enumConstant
  | recordDeclaration
  | interfaceDeclaration
  | interfaceBody
  | extendsInterfaces
  | constantDeclaration
  | annotationTypeDeclaration
  | annotationTypeBody
  | annotationTypeElementDeclaration
deriving DecidableEq, Repr, Inhabited

namespace Kind

/-- A kind other than a keyword or a sign. -/
def isNamed : Kind → Bool
  | .sign _ => false
  | _ => true

/-- A comment. -/
def isComment : Kind → Bool
  | .lineComment | .blockComment => true
  | _ => false

/-- The name of a kind. -/
def name : Kind → String
  | .sign text => text
  | .lineComment => "line_comment"
  | .blockComment => "block_comment"
  | .program => "program"
  | .identifier => "identifier"
  | .scopedIdentifier => "scoped_identifier"
  | .asterisk => "asterisk"
  | .decimalIntegerLiteral => "decimal_integer_literal"
  | .hexIntegerLiteral => "hex_integer_literal"
  | .octalIntegerLiteral => "octal_integer_literal"
  | .binaryIntegerLiteral => "binary_integer_literal"
  | .decimalFloatingPointLiteral => "decimal_floating_point_literal"
  | .hexFloatingPointLiteral => "hex_floating_point_literal"
  | .trueLiteral => "true"
  | .falseLiteral => "false"
  | .nullLiteral => "null_literal"
  | .characterLiteral => "character_literal"
  | .stringLiteral => "string_literal"
  | .this => "this"
  | .super => "super"
  | .typeIdentifier => "type_identifier"
  | .scopedTypeIdentifier => "scoped_type_identifier"
  | .genericType => "generic_type"
  | .arrayType => "array_type"
  | .annotatedType => "annotated_type"
  | .voidType => "void_type"
  | .integralType => "integral_type"
  | .floatingPointType => "floating_point_type"
  | .booleanType => "boolean_type"
  | .typeArguments => "type_arguments"
  | .wildcard => "wildcard"
  | .dimensions => "dimensions"
  | .dimensionsExpr => "dimensions_expr"
  | .typeParameters => "type_parameters"
  | .typeParameter => "type_parameter"
  | .typeBound => "type_bound"
  | .typeList => "type_list"
  | .assignmentExpression => "assignment_expression"
  | .binaryExpression => "binary_expression"
  | .instanceofExpression => "instanceof_expression"
  | .lambdaExpression => "lambda_expression"
  | .inferredParameters => "inferred_parameters"
  | .ternaryExpression => "ternary_expression"
  | .unaryExpression => "unary_expression"
  | .updateExpression => "update_expression"
  | .castExpression => "cast_expression"
  | .switchExpression => "switch_expression"
  | .parenthesizedExpression => "parenthesized_expression"
  | .objectCreationExpression => "object_creation_expression"
  | .arrayCreationExpression => "array_creation_expression"
  | .fieldAccess => "field_access"
  | .arrayAccess => "array_access"
  | .methodInvocation => "method_invocation"
  | .methodReference => "method_reference"
  | .classLiteral => "class_literal"
  | .templateExpression => "template_expression"
  | .argumentList => "argument_list"
  | .arrayInitializer => "array_initializer"
  | .switchBlock => "switch_block"
  | .switchBlockStatementGroup => "switch_block_statement_group"
  | .switchRule => "switch_rule"
  | .switchLabel => "switch_label"
  | .guard => "guard"
  | .pattern => "pattern"
  | .typePattern => "type_pattern"
  | .recordPattern => "record_pattern"
  | .recordPatternBody => "record_pattern_body"
  | .recordPatternComponent => "record_pattern_component"
  | .underscorePattern => "underscore_pattern"
  | .block => "block"
  | .expressionStatement => "expression_statement"
  | .labeledStatement => "labeled_statement"
  | .ifStatement => "if_statement"
  | .whileStatement => "while_statement"
  | .forStatement => "for_statement"
  | .enhancedForStatement => "enhanced_for_statement"
  | .doStatement => "do_statement"
  | .assertStatement => "assert_statement"
  | .breakStatement => "break_statement"
  | .continueStatement => "continue_statement"
  | .returnStatement => "return_statement"
  | .yieldStatement => "yield_statement"
  | .synchronizedStatement => "synchronized_statement"
  | .throwStatement => "throw_statement"
  | .tryStatement => "try_statement"
  | .tryWithResourcesStatement => "try_with_resources_statement"
  | .resourceSpecification => "resource_specification"
  | .resource => "resource"
  | .catchClause => "catch_clause"
  | .catchFormalParameter => "catch_formal_parameter"
  | .catchType => "catch_type"
  | .finallyClause => "finally_clause"
  | .localVariableDeclaration => "local_variable_declaration"
  | .annotationMarker => "marker_annotation"
  | .annotationWith => "annotation"
  | .annotationArgumentList => "annotation_argument_list"
  | .elementValuePair => "element_value_pair"
  | .elementValueArrayInitializer => "element_value_array_initializer"
  | .moduleDeclaration => "module_declaration"
  | .moduleBody => "module_body"
  | .requiresModuleDirective => "requires_module_directive"
  | .requiresModifier => "requires_modifier"
  | .exportsModuleDirective => "exports_module_directive"
  | .opensModuleDirective => "opens_module_directive"
  | .usesModuleDirective => "uses_module_directive"
  | .providesModuleDirective => "provides_module_directive"
  | .packageDeclaration => "package_declaration"
  | .importDeclaration => "import_declaration"
  | .modifiers => "modifiers"
  | .classDeclaration => "class_declaration"
  | .classBody => "class_body"
  | .superclass => "superclass"
  | .superInterfaces => "super_interfaces"
  | .permits => "permits"
  | .staticInitializer => "static_initializer"
  | .constructorDeclaration => "constructor_declaration"
  | .constructorBody => "constructor_body"
  | .explicitConstructorInvocation => "explicit_constructor_invocation"
  | .compactConstructorDeclaration => "compact_constructor_declaration"
  | .fieldDeclaration => "field_declaration"
  | .variableDeclarator => "variable_declarator"
  | .methodDeclaration => "method_declaration"
  | .formalParameters => "formal_parameters"
  | .formalParameter => "formal_parameter"
  | .spreadParameter => "spread_parameter"
  | .receiverParameter => "receiver_parameter"
  | .throws => "throws"
  | .enumDeclaration => "enum_declaration"
  | .enumBody => "enum_body"
  | .enumBodyDeclarations => "enum_body_declarations"
  | .enumConstant => "enum_constant"
  | .recordDeclaration => "record_declaration"
  | .interfaceDeclaration => "interface_declaration"
  | .interfaceBody => "interface_body"
  | .extendsInterfaces => "extends_interfaces"
  | .constantDeclaration => "constant_declaration"
  | .annotationTypeDeclaration => "annotation_type_declaration"
  | .annotationTypeBody => "annotation_type_body"
  | .annotationTypeElementDeclaration => "annotation_type_element_declaration"

end Kind

/-- The part a child plays in its parent. -/
inductive Role where
  | name
  | body
  | typeParameters
  | declarator
  | object
  | field
  | arguments
  | type
deriving DecidableEq, Repr

/-- A syntax tree. -/
inductive Tree where
  | node (kind : Kind) (span : Span) (children : List (Option Role × Tree))
deriving Repr

namespace Tree

/-- The kind of the root. -/
def kind : Tree → Kind
  | .node k _ _ => k

/-- The bytes that the tree covers. -/
def span : Tree → Span
  | .node _ s _ => s

/-- The children with their roles, in order. -/
def parts : Tree → List (Option Role × Tree)
  | .node _ _ cs => cs

instance : Inhabited Tree := ⟨.node .program ⟨0, 0⟩ []⟩

/-- The children, in order. -/
def children (t : Tree) : List Tree := t.parts.map (·.2)

/-- The children other than keywords and signs; comments are among them. -/
def namedChildren (t : Tree) : List Tree := t.children.filter (·.kind.isNamed)

/-- All children that play a role. -/
def childrenAs (t : Tree) (role : Role) : List Tree :=
  (t.parts.filter (·.1 == some role)).map (·.2)

/-- The first child that plays a role. -/
def child? (t : Tree) (role : Role) : Option Tree := (t.childrenAs role).head?

/-- The text of a tree within the text that it was read from. -/
def text (t : Tree) (source : String) : String := (Text.slice? source t.span).getD ""

mutual

/-- **The tree and all trees below it**, each before its children. -/
def preorder : Tree → List Tree
  | .node k s cs => .node k s cs :: preorderParts cs

/-- The trees of a list of children, each before its own children. -/
def preorderParts : List (Option Role × Tree) → List Tree
  | [] => []
  | (_, t) :: rest => t.preorder ++ preorderParts rest

end

mutual

/-- Every tree with its ancestors, the nearest first, in the order of
`preorder`. -/
def withAncestors (above : List Tree) : Tree → List (Tree × List Tree)
  | .node k s cs => (.node k s cs, above) :: withAncestorsParts (.node k s cs :: above) cs

/-- The trees of a list of children, with their ancestors. -/
def withAncestorsParts (above : List Tree) :
    List (Option Role × Tree) → List (Tree × List Tree)
  | [] => []
  | (_, t) :: rest => withAncestors above t ++ withAncestorsParts above rest

end

end Tree

end Java

end Remedy
