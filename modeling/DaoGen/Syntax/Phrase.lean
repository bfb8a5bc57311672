import DaoGen.Syntax.Tree
set_option autoImplicit false

/-!
# Phrases

The names of the rules of the grammar.  Their order matters: of two readings of the
same text that are equally good, the one with the earlier phrase is taken.
-/

namespace DaoGen.Syntax

/-- What a rule of the grammar describes. -/
inductive Phrase where
  | program
  | exportStatement | wholeExport | exportList | exportSpecifier | moduleName
  | declaration
  | importWord | importStatement | importClause | fromModule | wholeImport | namedImports
  | importSpecifier | importAttributes
  | statement | expressionStatement | varDeclaration | lexicalDeclaration | declarator | block
  | elseClause | ifStatement | switchStatement | forStatement | forEachStatement | forHeader
  | whileStatement | doStatement | tryStatement | withStatement | breakStatement
  | continueStatement | debuggerStatement | returnStatement | throwStatement | emptyStatement
  | labeledStatement | switchBody | switchCase | switchDefault | catchClause | finallyClause
  | parenthesized | expression | primary | yieldExpression
  | object | objectPattern | assignmentPattern | objectAssignmentPattern | array | arrayPattern
  | nestedName
  | classExpression | classDeclaration | heritage
  | functionExpression | functionDeclaration | generatorExpression | generatorDeclaration
  | arrowFunction | signature | parameter | optionalChain
  | call | construction | awaitExpression | member | subscript
  | assignment | augmentedTarget | augmentedAssignment | initializer | destructuring | spread
  | ternary | binary | unary | update | sequence
  | string | template | substitution | regularExpression | metaProperty | arguments
  | decorator | decoratorMember | decoratorCall
  | classBody | parameters | staticBlock | pattern | restPattern | methodDefinition
  | pair | pairPattern | propertyName | computedName
  | fieldDefinition | importName | nonNull | methodSignature | abstractSignature
  | functionSignature | decoratorGroup | typeAssertion | asExpression | satisfies
  | instantiation | requireClause | extendsClause | extendedValue | implementsClause
  | ambientDeclaration | abstractClass | moduleDeclaration | namespaceDeclaration
  | namespaceBody | importAlias | nestedTypeName
  | interfaceDeclaration | extendedTypes | enumDeclaration | enumBody | enumAssignment
  | aliasDeclaration | accessibility | overrideWord
  | requiredParameter | optionalParameter | parameterName
  | omittingClause | addingClause | optingClause | typeClause | annotatedMember | annotatedCall
  | assertion | assertionClause | type
  | tupleParameter | optionalTupleParameter | optionalType | restType | tupleMember
  | constructorType | primaryType | typeGap | templateType | inferType | conditionalType
  | genericType | predicate | predicateClause
  | queryMember | querySubscript | queryCall | queryInstantiation | typeQuery | keyQuery
  | lookupType | mappedClause | literalType | signedNumber | existentialType | maybeType
  | parenthesizedType | predefinedType | typeArguments | objectType | callSignature
  | propertySignature | typeParameters | typeParameter | defaultType | constraint
  | constructSignature | indexSignature | arrayType | tupleType | readonlyType
  | unionType | intersectionType | functionType
  deriving DecidableEq, Repr, Inhabited

namespace Phrase

/-- The place of a phrase in their order. -/
def number (p : Phrase) : Nat := p.ctorIdx

/-- The kind of the nodes that a phrase has in a tree.  A phrase without one has no nodes
of its own: its parts belong to the node around it. -/
def kind? : Phrase → Option Kind
  | program => some .program
  | exportStatement => some .exportStatement
  | importStatement => some .importStatement
  | importClause => some .importClause
  | wholeImport => some .wholeImport
  | namedImports => some .namedImports
  | importSpecifier => some .importSpecifier
  | moduleName | declaration | fromModule | statement | forHeader | expression | primary
  | signature | parameter | augmentedTarget | initializer | destructuring | pattern
  | propertyName | importName | extendedValue | namespaceBody | parameterName | type
  | tupleMember | primaryType => none
  | expressionStatement | varDeclaration | lexicalDeclaration | ifStatement | switchStatement
  | forStatement | forEachStatement | whileStatement | doStatement | tryStatement
  | withStatement | breakStatement | continueStatement | debuggerStatement | returnStatement
  | throwStatement | emptyStatement | labeledStatement | functionDeclaration
  | generatorDeclaration | functionSignature | ambientDeclaration | moduleDeclaration
  | importAlias => some .statement
  | block => some .block
  | parenthesized => some .parenthesized
  | object => some .object
  | array => some .array
  | classDeclaration => some .classDeclaration
  | abstractClass => some .abstractClassDeclaration
  | heritage => some .heritage
  | call => some .call
  | member => some .member
  | spread => some .spread
  | unary => some .unary
  | string => some .string
  | template => some .template
  | substitution => some .substitution
  | arguments => some .arguments
  | decorator => some .decorator
  | classBody => some .classBody
  | parameters => some .parameters
  | staticBlock => some .staticBlock
  | restPattern => some .restPattern
  | methodDefinition => some .methodDefinition
  | pair => some .pair
  | computedName => some .computedName
  | fieldDefinition => some .field
  | methodSignature => some .methodSignature
  | abstractSignature => some .abstractSignature
  | asExpression => some .asExpression
  | satisfies => some .satisfies
  | extendsClause => some .extendsClause
  | implementsClause => some .implementsClause
  | nestedTypeName => some .nestedTypeName
  | interfaceDeclaration => some .interfaceDeclaration
  | enumDeclaration => some .enumDeclaration
  | aliasDeclaration => some .aliasDeclaration
  | accessibility => some .accessibility
  | requiredParameter => some .requiredParameter
  | optionalParameter => some .optionalParameter
  | typeClause => some .typeClause
  | assertionClause => some .predicateClause
  | predicateClause => some .predicateClause
  | constructorType | functionType => some .functionType
  | conditionalType => some .conditionalType
  | genericType => some .genericType
  | literalType => some .literalType
  | parenthesizedType => some .parenthesizedType
  | predefinedType => some .predefinedType
  | typeArguments => some .typeArguments
  | objectType => some .objectType
  | typeParameters => some .typeParameters
  | indexSignature => some .indexSignature
  | arrayType => some .arrayType
  | tupleType => some .tupleType
  | unionType => some .unionType
  | intersectionType => some .intersectionType
  | assertion | annotatedMember | annotatedCall | optionalType | restType | tupleParameter
  | optionalTupleParameter | typeGap | templateType | inferType | predicate | typeQuery
  | keyQuery | lookupType | mappedClause | existentialType | maybeType | readonlyType =>
    some .typeOperator
  | _ => some .operation

end Phrase

end DaoGen.Syntax
