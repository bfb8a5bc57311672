import DaoGen.Syntax.Grammar.Shared
set_option autoImplicit false

/-!
# Statements and declarations
-/

namespace DaoGen.Syntax.Grammar

open Form

/-- The whole text, and what it is made of. -/
def texts : List Rule :=
  [(.program, seq [opt (token .interpreter), many (of .statement)]),
    (.statement, choice [
      of .exportStatement, of .importStatement, of .debuggerStatement, of .expressionStatement,
      of .declaration, of .block, of .ifStatement, of .switchStatement, of .forStatement,
      of .forEachStatement, of .whileStatement, of .doStatement, of .tryStatement,
      of .withStatement, of .breakStatement, of .continueStatement, of .returnStatement,
      of .throwStatement, of .emptyStatement, of .labeledStatement]),
    (.declaration, choice [
      of .functionDeclaration, of .generatorDeclaration, of .classDeclaration,
      of .lexicalDeclaration, of .varDeclaration, of .functionSignature, of .abstractClass,
      of .moduleDeclaration, ranked .declaration (of .namespaceDeclaration),
      of .aliasDeclaration, of .enumDeclaration, of .interfaceDeclaration, of .importAlias,
      of .ambientDeclaration])]

/-- Statements that are no declarations. -/
def statements : List Rule :=
  [(.expressionStatement, seq [expressions, semicolon]),
    (.block, right (seq ["\x7b", many (of .statement), "\x7d", opt (token .omitted)])),
    (.elseClause, seq ["else", of .statement]),
    (.ifStatement, right (seq ["if", of .parenthesized, of .statement, opt (of .elseClause)])),
    (.switchStatement, seq ["switch", of .parenthesized, of .switchBody]),
    (.forStatement, seq ["for", "(",
      choice [
        choice [of .lexicalDeclaration, of .varDeclaration],
        seq [expressions, ";"],
        of .emptyStatement],
      choice [seq [expressions, ";"], of .emptyStatement],
      opt expressions,
      ")", of .statement]),
    (.forEachStatement, seq ["for", opt "await", of .forHeader, of .statement]),
    (.forHeader, seq ["(",
      choice [
        choice [target, of .parenthesized],
        seq ["var", variable_, opt (of .initializer)],
        seq [choice ["let", "const"], variable_, opt (token .omitted)]],
      choice ["in", "of"], expressions, ")"]),
    (.whileStatement, seq ["while", of .parenthesized, of .statement]),
    (.doStatement, right (seq ["do", of .statement, "while", of .parenthesized, opt semicolon])),
    (.tryStatement, seq ["try", of .block, opt (of .catchClause), opt (of .finallyClause)]),
    (.withStatement, seq ["with", of .parenthesized, of .statement]),
    (.breakStatement, seq ["break", opt name, semicolon]),
    (.continueStatement, seq ["continue", opt name, semicolon]),
    (.debuggerStatement, seq ["debugger", semicolon]),
    (.returnStatement, seq ["return", opt expressions, semicolon]),
    (.throwStatement, seq ["throw", expressions, semicolon]),
    (.emptyStatement, ";"),
    (.labeledStatement, weighed (-1) (seq [choice [name, softName], ":", of .statement])),
    (.switchBody, seq ["\x7b", many (choice [of .switchCase, of .switchDefault]), "\x7d"]),
    (.switchCase, seq ["case", expressions, ":", many (of .statement)]),
    (.switchDefault, seq ["default", ":", many (of .statement)]),
    (.catchClause, seq ["catch",
      opt (seq ["(", variable_, typed, ")"]), of .block]),
    (.finallyClause, seq ["finally", of .block])]

/-- Declarations of variables, functions, namespaces and enumerations. -/
def declarations : List Rule :=
  [(.varDeclaration, seq ["var", commaList (of .declarator), semicolon]),
    (.lexicalDeclaration, seq [choice ["let", "const"], commaList (of .declarator), semicolon]),
    (.declarator, choice [
      seq [variable_, typed, opt (of .initializer)],
      ranked .declared (seq [name, "!", of .typeClause])]),
    (.functionDeclaration, bound (some .declaration) (some .right) (seq [
      opt "async", "function", name, callable, of .block, opt (token .omitted)])),
    (.generatorDeclaration, bound (some .declaration) (some .right) (seq [
      opt "async", "function", "*", name, callable, of .block, opt (token .omitted)])),
    (.functionSignature, seq [
      opt "async", "function", name, callable, choice [semicolon, token .omittedAfterSignature]]),
    (.ambientDeclaration, seq ["declare",
      choice [
        of .declaration,
        seq ["global", of .block],
        seq ["module", ".", nameAs .propertyName, ":", of .type, semicolon]]]),
    (.moduleDeclaration, seq ["module", of .namespaceBody]),
    (.namespaceDeclaration, seq ["namespace", of .namespaceBody]),
    (.namespaceBody, right (seq [choice [of .string, name, of .nestedName], opt (of .block)])),
    (.enumDeclaration, seq [opt "const", "enum", inRole .name name, of .enumBody]),
    (.enumBody, seq ["\x7b",
      opt (seq [
        separated "," (choice [of .propertyName, of .enumAssignment]),
        opt ","]),
      "\x7d"]),
    (.enumAssignment, seq [of .propertyName, of .initializer])]

end DaoGen.Syntax.Grammar
