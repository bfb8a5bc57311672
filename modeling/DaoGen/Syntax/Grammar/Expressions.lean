import DaoGen.Syntax.Grammar.Shared
set_option autoImplicit false

/-!
# Expressions
-/

namespace DaoGen.Syntax.Grammar

open Form

/-- Expressions and what they are chosen from. -/
def values : List Rule :=
  [(.expression, choice [
      of .asExpression, of .satisfies, of .instantiation, of .namespaceDeclaration,
      of .typeAssertion, of .primary, of .assignment, of .augmentedAssignment,
      of .awaitExpression, of .unary, of .binary, of .ternary, of .update, of .construction,
      of .yieldExpression]),
    (.primary, choice [
      of .subscript, of .member, of .parenthesized, valueName, softNameAs .name, "this",
      "super", token .number, of .string, of .template, of .regularExpression, "true", "false",
      "null", of .object, of .array, of .functionExpression, of .arrowFunction,
      of .generatorExpression, of .classExpression, of .metaProperty, of .call, of .nonNull]),
    (.parenthesized, seq ["(",
      choice [seq [of .expression, typed], of .sequence], ")"]),
    (.sequence, right (commaList (of .expression))),
    (.metaProperty, choice [seq ["new", ".", "target"], seq ["import", ".", "meta"]])]

/-- Strings, templates and regular expressions. -/
def literals : List Rule :=
  let quoted (quote : Quote) : Form :=
    let mark := token (.mark (String.singleton quote.char))
    seq [mark, many (choice [token (.quoted quote), token .escape]), mark]
  [(.string, choice [quoted .double, quoted .single]),
    (.template, seq ["\x60",
      many (choice [token .fragment, token .escape, of .substitution]), "\x60"]),
    (.substitution, seq ["$\x7b", expressions, "\x7d"]),
    (.regularExpression, seq ["/", token .pattern, token .patternEnd, opt (token .flags)])]

/-- Objects, arrays and the patterns that are written like them. -/
def collections : List Rule :=
  [(.object, ranked .object (seq ["\x7b",
      opt (commaList (opt (choice [
        of .pair, of .spread, of .methodDefinition,
        ofKind .shorthand (choice [name, softName])]))), "\x7d"])),
    (.objectPattern, ranked .object (seq ["\x7b",
      opt (commaList (opt (choice [
        of .pairPattern, of .restPattern, of .objectAssignmentPattern,
        ofKind .shorthand (choice [name, softName])]))), "\x7d"])),
    (.assignmentPattern, seq [of .pattern, "=", of .expression]),
    (.objectAssignmentPattern, seq [
      choice [ofKind .shorthand (choice [softName, name]), of .destructuring],
      "=", of .expression]),
    (.array, seq ["[", opt (commaList (opt (choice [of .expression, of .spread]))), "]"]),
    (.arrayPattern, seq ["[",
      opt (commaList (opt (choice [of .pattern, of .assignmentPattern]))), "]"]),
    (.destructuring, choice [of .objectPattern, of .arrayPattern]),
    (.spread, seq ["...", of .expression]),
    (.pair, seq [inRole .key (of .propertyName), ":", inRole .value (of .expression)]),
    (.pairPattern, seq [
      of .propertyName, ":", choice [of .pattern, of .assignmentPattern]]),
    (.pattern, weighed (-1) (choice [target, of .restPattern])),
    (.restPattern, right (seq ["...", target])),
    (.propertyName, choice [
      ofKind .propertyName (choice [name, softName]), token .privateName, of .string,
      token .number, of .computedName]),
    (.computedName, seq ["[", of .expression, "]"])]

/-- Functions as expressions. -/
def functions : List Rule :=
  [(.functionExpression, ranked .literal (seq [
      opt "async", "function", opt name, callable, of .block])),
    (.generatorExpression, ranked .literal (seq [
      opt "async", "function", "*", opt name, callable, of .block])),
    (.arrowFunction, seq [opt "async",
      choice [choice [softNameAs .name, name], callable],
      "=>", choice [of .expression, of .block]])]

/-- Calls, members and what is built with `new`. -/
def accesses : List Rule :=
  [(.optionalChain, "?."),
    (.call, choice [
      ranked .call (seq [
        inRole .function (choice [of .expression, of .importWord]),
        typeArguments, inRole .arguments (of .arguments)]),
      ranked .templateCall (seq [
        inRole .function (choice [of .primary, of .construction]),
        inRole .arguments (of .template)]),
      ranked .member (seq [
        inRole .function (of .primary), "?.", typeArguments,
        inRole .arguments (of .arguments)])]),
    (.construction, rightAt .construction (seq [
      "new", of .primary, typeArguments, inRole .arguments (opt (of .arguments))])),
    (.member, ranked .member (seq [
      inRole .object (choice [of .expression, of .primary, of .importWord]),
      choice [".", of .optionalChain],
      inRole .property memberName])),
    (.subscript, rightAt .member (seq [
      choice [of .expression, of .primary], opt (of .optionalChain),
      "[", expressions, "]"])),
    (.nonNull, leftAt .unary (seq [of .expression, "!"])),
    (.instantiation, ranked .instantiation (seq [of .expression, of .typeArguments])),
    (.arguments, seq ["(",
      opt (commaList (opt (choice [of .expression, of .spread]))), ")"])]

/-- Operators that assign. -/
def assigningMarks : List String :=
  ["+=", "-=", "*=", "/=", "%=", "^=", "&=", "|=", ">>=", ">>>=", "<<=", "**=", "&&=", "||=",
    "??="]

/-- Assignments. -/
def assignments : List Rule :=
  [(.assignment, rightAt .assignment (seq [
      opt "using", choice [of .parenthesized, target], "=", of .expression])),
    (.augmentedTarget, choice [
      of .member, of .subscript, softNameAs .name, name, of .parenthesized, of .nonNull]),
    (.augmentedAssignment, rightAt .assignment (seq [
      of .augmentedTarget, choice (assigningMarks.map fun m => token (.mark m)),
      of .expression])),
    (.initializer, seq ["=", inRole .value (of .expression)])]

/-- Operators between two operands, with their ranks. -/
def binaryOperators : List (String × Rank) :=
  [("&&", .and), ("||", .or), (">>", .shift), (">>>", .shift), ("<<", .shift), ("&", .bitAnd),
    ("^", .bitXor), ("|", .bitOr), ("+", .plus), ("-", .plus), ("*", .times), ("/", .times),
    ("%", .times), ("<", .comparison), ("<=", .comparison), ("==", .equality),
    ("===", .equality), ("!=", .equality), ("!==", .equality), (">=", .comparison),
    (">", .comparison), ("??", .choice), ("instanceof", .comparison)]

/-- Expressions with operators. -/
def operations : List Rule :=
  let operand := of .expression
  [(.awaitExpression, ranked .unaryWord (seq ["await", operand])),
    (.ternary, rightAt .choice (seq [operand, token .choice, operand, ":", operand])),
    (.binary, choice (
      binaryOperators.map (fun (mark, rank) => leftAt rank (seq [operand, mark, operand])) ++
        [rightAt .power (seq [operand, "**", operand]),
          leftAt .comparison (seq [choice [operand, token .privateName], "in", operand])])),
    (.unary, leftAt .unaryWord (seq [
      inRole .operator (choice ["!", "~", "-", "+", "typeof", "void", "delete"]),
      inRole .argument operand])),
    (.update, left (choice [
      seq [operand, choice ["++", "--"]],
      seq [choice ["++", "--"], operand]])),
    (.yieldExpression, right (seq ["yield", choice [seq ["*", operand], opt operand]])),
    (.typeAssertion, leftAt .unary (seq [of .typeArguments, operand])),
    (.asExpression, leftAt .binary (seq [operand, "as", choice ["const", of .type]])),
    (.satisfies, leftAt .binary (seq [operand, "satisfies", of .type]))]

end DaoGen.Syntax.Grammar
