import DaoGen.Syntax.Grammar.Classes
import DaoGen.Syntax.Grammar.Expressions
import DaoGen.Syntax.Grammar.Modules
import DaoGen.Syntax.Grammar.Statements
import DaoGen.Syntax.Grammar.Types
set_option autoImplicit false

/-!
# The grammar

All rules together, and how tightly phrases and forms bind compared to each other.
-/

namespace DaoGen.Syntax.Grammar

/-- The rules of the grammar. -/
def rules : List Rule :=
  texts ++ exports ++ imports ++ statements ++ declarations ++ values ++ literals ++ collections ++
    functions ++ accesses ++ assignments ++ operations ++ decorations ++ classes ++ members ++
    parameterLists ++ typeDeclarations ++ annotations ++ types ++ namedTypes ++ literalTypes ++
    tupleTypes ++ typeQueries ++ objectTypes

/-- What is compared by how tightly it binds. -/
inductive Binder where
  | rank (r : Rank)
  | phrase (p : Phrase)
  deriving DecidableEq, Repr, Inhabited

/-- Rows of forms, each binding more tightly than those after it.  Forms that stand in
no row together bind equally. -/
def bindings : List (List Binder) :=
  let rank := Binder.rank
  let phrase := Binder.phrase
  [[rank .member, rank .templateCall, rank .call, phrase .update, rank .unaryWord, rank .power,
      rank .times, rank .plus, rank .shift, rank .comparison, rank .equality, rank .bitAnd,
      rank .bitXor, rank .bitOr, rank .and, rank .or, rank .choice, phrase .sequence,
      phrase .arrowFunction],
    [rank .assignment, phrase .primary],
    [rank .member, rank .templateCall, rank .construction, rank .call, phrase .expression],
    [rank .declaration, rank .literal],
    [phrase .primary, phrase .block, rank .object],
    [phrase .metaProperty, phrase .importWord],
    [phrase .importStatement, phrase .importWord],
    [phrase .exportStatement, phrase .primary],
    [phrase .lexicalDeclaration, phrase .primary],
    [rank .call, rank .instantiation, rank .unary, rank .binary, phrase .awaitExpression,
      phrase .arrowFunction],
    [rank .extension, rank .instantiation],
    [phrase .intersectionType, phrase .unionType, phrase .conditionalType, phrase .functionType,
      rank .binary, phrase .predicate, phrase .readonlyType],
    [phrase .mappedClause, phrase .primary],
    [phrase .accessibility, phrase .primary],
    [rank .unaryWord, phrase .expression],
    [phrase .extendsClause, phrase .primary],
    [rank .unary, rank .assignment],
    [rank .declared, phrase .expression],
    [phrase .predefinedType, phrase .unary],
    [phrase .type, phrase .maybeType],
    [phrase .tupleType, phrase .arrayType, phrase .pattern, phrase .type],
    [phrase .readonlyType, phrase .pattern],
    [phrase .readonlyType, phrase .primary],
    [phrase .typeQuery, phrase .subscript, phrase .expression],
    [phrase .typeQuery, phrase .querySubscript],
    [phrase .nestedTypeName, phrase .genericType, phrase .primaryType, phrase .lookupType,
      phrase .keyQuery, phrase .type],
    [phrase .asExpression, phrase .satisfies, phrase .primaryType],
    [phrase .queryMember, phrase .member],
    [phrase .member, phrase .annotatedMember],
    [phrase .queryMember, phrase .primary],
    [phrase .querySubscript, phrase .subscript],
    [phrase .querySubscript, phrase .primary],
    [phrase .queryCall, phrase .primary],
    [phrase .queryInstantiation, phrase .primary],
    [phrase .typeQuery, phrase .primary],
    [phrase .overrideWord, phrase .primary],
    [phrase .decoratorCall, phrase .decorator],
    [phrase .literalType, phrase .pattern],
    [phrase .predefinedType, phrase .pattern],
    [phrase .call, phrase .queryCall],
    [phrase .call, phrase .annotatedCall],
    [phrase .construction, phrase .primary],
    [phrase .metaProperty, phrase .primary],
    [phrase .constructSignature, phrase .propertyName]]

end DaoGen.Syntax.Grammar
