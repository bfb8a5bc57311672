import DaoGen.Syntax.Grammar.Shared
set_option autoImplicit false

/-!
# Imports and exports
-/

namespace DaoGen.Syntax.Grammar

open Form

/-- Exported declarations, names and modules. -/
def exports : List Rule :=
  [(.exportStatement, choice [
      seq ["export",
        choice [
          seq ["*", of .fromModule],
          seq [of .wholeExport, of .fromModule],
          seq [of .exportList, of .fromModule],
          of .exportList],
        semicolon],
      seq [decorators, "export",
        choice [
          of .declaration,
          seq ["default", choice [of .declaration, seq [of .expression, semicolon]]]]],
      seq ["export", "type", of .exportList, opt (of .fromModule), semicolon],
      seq ["export", "import", of .importAlias],
      seq ["export", "=", of .expression, semicolon],
      seq ["export", "as", "namespace", name, semicolon]]),
    (.wholeExport, seq ["*", "as", of .moduleName]),
    (.exportList, seq ["\x7b", opt (commaList (of .exportSpecifier)), opt ",", "\x7d"]),
    (.exportSpecifier, seq [
      opt (choice ["type", "typeof"]),
      inRole .name (of .moduleName),
      opt (seq ["as", inRole .renamed (of .moduleName)])]),
    (.moduleName, choice [name, of .string])]

/-- Imported names and modules. -/
def imports : List Rule :=
  [(.importWord, "import"),
    (.importStatement, seq ["import",
      opt (choice ["type", "typeof"]),
      choice [
        seq [of .importClause, of .fromModule],
        of .requireClause,
        of .string],
      opt (of .importAttributes),
      semicolon]),
    (.importClause, choice [
      of .wholeImport,
      of .namedImports,
      seq [of .importName, opt (seq [",", choice [of .wholeImport, of .namedImports]])]]),
    (.importName, choice [name, ofKind .name "type"]),
    (.fromModule, seq ["from", of .string]),
    (.wholeImport, seq ["*", "as", name]),
    (.namedImports, seq ["\x7b", opt (commaList (of .importSpecifier)), opt ",", "\x7d"]),
    (.importSpecifier, seq [
      opt (choice ["type", "typeof"]),
      choice [
        inRole .name (of .importName),
        seq [inRole .name (choice [of .moduleName, ofKind .name "type"]), "as",
          inRole .renamed (of .importName)]]]),
    (.importAttributes, seq [choice ["with", "assert"], of .object]),
    (.requireClause, seq [name, "=", "require", "(", of .string, ")"]),
    (.importAlias, seq ["import", name, "=", choice [name, of .nestedName], semicolon]),
    (.nestedName, ranked .member (seq [
      choice [name, ofKind .member (of .nestedName)], ".", nameAs .propertyName]))]

end DaoGen.Syntax.Grammar
