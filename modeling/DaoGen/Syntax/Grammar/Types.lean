import DaoGen.Syntax.Grammar.Shared
set_option autoImplicit false

/-!
# Types
-/

namespace DaoGen.Syntax.Grammar

open Form

/-- Declarations of types. -/
def typeDeclarations : List Rule :=
  [(.interfaceDeclaration, seq [
      "interface", inRole .name typeName, generic, opt (of .extendedTypes), of .objectType]),
    (.extendedTypes, seq [
      "extends", commaList (choice [typeName, of .nestedTypeName, of .genericType])]),
    (.aliasDeclaration, seq [
      "type", inRole .name typeName, generic, "=", inRole .value (of .type), semicolon])]

/-- Annotations. -/
def annotations : List Rule :=
  [(.omittingClause, seq ["-?:", of .type]),
    (.addingClause, seq ["+?:", of .type]),
    (.optingClause, seq ["?:", of .type]),
    (.typeClause, seq [":",
      choice [of .type, ofKind .member (of .annotatedMember), ofKind .call (of .annotatedCall)]]),
    (.annotatedMember, seq [
      choice [of .importWord, ofKind .member (of .annotatedMember),
        ofKind .call (of .annotatedCall)],
      ".", memberName]),
    (.annotatedCall, seq [
      choice [of .importWord, ofKind .member (of .annotatedMember)], of .arguments]),
    (.assertion, seq ["asserts", choice [of .predicate, name, "this"]]),
    (.assertionClause, seq [":", of .assertion]),
    (.predicate, seq [
      choice [name, "this", ofKind .name (of .predefinedType)], "is", of .type]),
    (.predicateClause, seq [":", of .predicate])]

/-- Types and what they are chosen from. -/
def types : List Rule :=
  [(.type, choice [
      of .primaryType, of .functionType, of .readonlyType, of .constructorType, of .inferType,
      ranked (.level (-1)) (ofKind .member (of .annotatedMember)),
      ranked (.level (-1)) (ofKind .call (of .annotatedCall))]),
    (.primaryType, choice [
      of .parenthesizedType, of .predefinedType, typeName, of .nestedTypeName, of .genericType,
      of .objectType, of .arrayType, of .tupleType, of .maybeType, of .typeQuery, of .keyQuery,
      ofKind .typeOperator "this", of .existentialType, of .literalType, of .lookupType,
      of .conditionalType, of .templateType, of .intersectionType, of .unionType, "const"]),
    (.constructorType, left (seq [
      opt "abstract", "new", generic, of .parameters, "=>", of .type])),
    (.functionType, left (seq [
      generic, of .parameters, "=>", choice [of .type, of .assertion, of .predicate]])),
    (.readonlyType, seq ["readonly", of .type]),
    (.inferType, right (seq ["infer", typeName, opt (seq ["extends", of .type])])),
    (.conditionalType, right (seq [
      of .type, "extends", of .type, "?", of .type, ":", of .type])),
    (.unionType, left (seq [opt (of .type), "|", of .type])),
    (.intersectionType, left (seq [opt (of .type), "&", of .type])),
    (.keyQuery, seq ["keyof", of .primaryType]),
    (.lookupType, seq [of .primaryType, "[", of .type, "]"]),
    (.arrayType, seq [of .primaryType, "[", "]"]),
    (.maybeType, right (seq ["?", of .primaryType])),
    (.parenthesizedType, seq ["(", of .type, ")"]),
    (.existentialType, "*"),
    (.predefinedType, choice [
      "any", "number", "boolean", "string", "symbol", seq ["unique", "symbol"], "void",
      "unknown", "never", "object"])]

/-- Names of types, with type arguments and parameters. -/
def namedTypes : List Rule :=
  [(.nestedTypeName, ranked .member (seq [
      choice [name, of .nestedName], ".", typeName])),
    (.genericType, ranked .call (seq [
      inRole .name (choice [typeName, of .nestedTypeName]),
      inRole .typeArguments (of .typeArguments)])),
    (.typeArguments, seq ["<", commaList (of .type), opt ",", ">"]),
    (.typeParameters, seq ["<", commaList (of .typeParameter), opt ",", ">"]),
    (.typeParameter, seq [
      opt "const", typeName, opt (of .constraint), opt (of .defaultType)]),
    (.defaultType, seq ["=", of .type]),
    (.constraint, seq [choice ["extends", ":"], of .type])]

/-- Literals as types. -/
def literalTypes : List Rule :=
  [(.literalType, choice [
      ofKind .unary (of .signedNumber), token .number, of .string, "true", "false", "null",
      "undefined"]),
    (.signedNumber, bound (some (.level 1)) (some .left) (seq [
      choice ["-", "+"], token .number])),
    (.templateType, seq ["\x60", many (choice [token .fragment, of .typeGap]), "\x60"]),
    (.typeGap, seq ["$\x7b", choice [of .primaryType, of .inferType], "\x7d"])]

/-- Tuples. -/
def tupleTypes : List Rule :=
  [(.tupleType, seq ["[", opt (commaList (of .tupleMember)), opt ",", "]"]),
    (.tupleMember, choice [
      of .tupleParameter, of .optionalTupleParameter, of .optionalType, of .restType, of .type]),
    (.tupleParameter, seq [choice [name, of .restPattern], of .typeClause]),
    (.optionalTupleParameter, seq [name, "?", of .typeClause]),
    (.optionalType, seq [of .type, "?"]),
    (.restType, seq ["...", of .type])]

/-- Types of values. -/
def typeQueries : List Rule :=
  let index : Form := choice [of .predefinedType, of .string, token .number]
  let queriedMember : Form := ofKind .member (of .queryMember)
  let queriedSubscript : Form := ofKind .operation (of .querySubscript)
  let queriedCall : Form := ofKind .call (of .queryCall)
  let object : Form := choice [name, "this", queriedSubscript, queriedMember, queriedCall]
  let function : Form := choice [of .importWord, name, queriedMember, queriedSubscript]
  [(.typeQuery, right (seq ["typeof",
      choice [
        queriedSubscript, queriedMember, queriedCall,
        ofKind .operation (of .queryInstantiation), name, "this"]])),
    (.queryMember, seq [object, choice [".", "?."], memberName]),
    (.querySubscript, seq [object, opt "?.", "[", index, "]"]),
    (.queryCall, seq [function, of .arguments]),
    (.queryInstantiation, seq [function, of .typeArguments])]

/-- Object types. -/
def objectTypes : List Rule :=
  let propertyWords : Form :=
    seq [opt (of .accessibility), opt "static", opt (of .overrideWord), opt "readonly"]
  [(.objectType, seq [choice ["\x7b", "\x7b|"],
      opt (seq [
        opt (choice [",", ";"]),
        separated (choice [",", semicolon])
          (choice [
            of .exportStatement, of .propertySignature, of .callSignature,
            of .constructSignature, of .indexSignature, of .methodSignature]),
        opt (choice [",", semicolon])]),
      choice ["\x7d", "|\x7d"]]),
    (.callSignature, callable),
    (.propertySignature, seq [propertyWords, of .propertyName, opt "?", typed]),
    (.constructSignature, seq [opt "abstract", "new", generic, of .parameters, typed]),
    (.indexSignature, seq [
      opt (seq [opt (choice ["-", "+"]), "readonly"]),
      "[",
      choice [seq [choice [name, softNameAs .name], ":", of .type], of .mappedClause],
      "]",
      choice [of .typeClause, of .omittingClause, of .addingClause, of .optingClause]]),
    (.mappedClause, seq [typeName, "in", of .type, opt (seq ["as", of .type])])]

end DaoGen.Syntax.Grammar
