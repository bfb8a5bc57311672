import DaoGen.Syntax.Grammar.Shared
set_option autoImplicit false

/-!
# Classes and parameters
-/

namespace DaoGen.Syntax.Grammar

open Form

/-- Decorators. -/
def decorations : List Rule :=
  let path : Form := choice [name, ofKind .member (of .decoratorMember)]
  let called : Form := ofKind .call (of .decoratorCall)
  [(.decorator, seq ["@", choice [path, called, ofKind .parenthesized (of .decoratorGroup)]]),
    (.decoratorMember, ranked .member (seq [
      inRole .object path, ".", inRole .property (nameAs .propertyName)])),
    (.decoratorCall, ranked .call (seq [
      inRole .function path, typeArguments, inRole .arguments (of .arguments)])),
    (.decoratorGroup, seq ["(", choice [path, called], ")"])]

/-- What follows the name of a class. -/
def classTail : Form := seq [generic, opt (of .heritage), of .classBody]

/-- Classes and what they extend. -/
def classes : List Rule :=
  let named := inRole .name typeName
  [(.classExpression, ranked .literal (seq [decorators, "class", opt named, classTail])),
    (.classDeclaration, leftAt .declaration (seq [
      decorators, "class", named, classTail, opt (token .omitted)])),
    (.abstractClass, ranked .declaration (seq [
      decorators, "abstract", "class", named, classTail])),
    (.heritage, choice [
      seq [of .extendsClause, opt (of .implementsClause)], of .implementsClause]),
    (.extendsClause, seq ["extends", commaList (of .extendedValue)]),
    (.extendedValue, ranked .extension (seq [inRole .value (of .expression), typeArguments])),
    (.implementsClause, seq ["implements", commaList (of .type)])]

/-- Words in front of a method. -/
def methodWords : Form :=
  seq [opt (of .accessibility), opt "static", opt (of .overrideWord), opt "readonly",
    opt "async", opt (choice ["get", "set", "*"])]

/-- Members of a class. -/
def members : List Rule :=
  [(.classBody, seq ["\x7b",
      many (choice [
        seq [decorators, of .methodDefinition, opt semicolon],
        seq [of .methodSignature, choice [token .omittedAfterSignature, ","]],
        of .staticBlock,
        seq [
          choice [of .abstractSignature, of .indexSignature, of .methodSignature,
            of .fieldDefinition],
          choice [semicolon, ","]],
        ";"]),
      "\x7d"]),
    (.staticBlock, seq ["static", opt (token .omitted), of .block]),
    (.methodDefinition, left (seq [
      methodWords, of .propertyName, opt "?", callable, of .block])),
    (.methodSignature, seq [methodWords, of .propertyName, opt "?", callable]),
    (.abstractSignature, seq [
      opt (of .accessibility), "abstract", opt (of .overrideWord),
      opt (choice ["get", "set", "*"]), of .propertyName, opt "?", callable]),
    (.fieldDefinition, seq [
      decorators,
      opt (choice [
        seq ["declare", opt (of .accessibility)],
        seq [of .accessibility, opt "declare"]]),
      choice [
        seq [opt "static", opt (of .overrideWord), opt "readonly"],
        seq [opt "abstract", opt "readonly"],
        seq [opt "readonly", opt "abstract"],
        opt "accessor"],
      of .propertyName, opt (choice ["?", "!"]), typed, opt (of .initializer)]),
    (.accessibility, choice ["public", "private", "protected"]),
    (.overrideWord, "override")]

/-- Parameters. -/
def parameterLists : List Rule :=
  [(.signature, seq [
      generic, of .parameters,
      opt (choice [of .typeClause, of .assertionClause, of .predicateClause])]),
    (.parameters, seq ["(", opt (seq [commaList (of .parameter), opt ","]), ")"]),
    (.parameter, choice [of .requiredParameter, of .optionalParameter]),
    (.requiredParameter, seq [of .parameterName, typed, opt (of .initializer)]),
    (.optionalParameter, seq [of .parameterName, "?", typed, opt (of .initializer)]),
    (.parameterName, seq [
      decorators, opt (of .accessibility), opt (of .overrideWord), opt "readonly",
      inRole .pattern (choice [of .pattern, "this"])])]

end DaoGen.Syntax.Grammar
