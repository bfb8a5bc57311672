import DaoGen.Emit.Module
import DaoGen.Helper.Spec
import DaoGen.Settings.RuntimeNames
set_option autoImplicit false

/-!
# The helper module

The class of a helper opens the database, creates, upgrades and clears its tables,
and hands out one accessor per table, made when it is first asked for.
-/

namespace DaoGen.Emit

open DaoGen.Upgrade DaoGen.Schema

namespace HelperModule

/-! ## Imports -/

/-- The import of a class from its module. -/
def classImport (outDir : Path) (home : ModuleName) (name : String) : ImportClause :=
  .same (home.specifier outDir) name

/-- The import that a request asks for. -/
def requestImport (outDir : Path) (r : ImportRequest) : ImportClause :=
  ⟨r.home.specifier outDir, r.exported, r.localName⟩

/-- Names of the runtime that every helper uses. -/
def runtimeNames (runtime : RuntimeNames) : List String :=
  [runtime.context, runtime.database, runtime.connectionSource, runtime.openHelper, runtime.log]

/-- Names of the runtime that only helpers with tables use. -/
def tableRuntimeNames (runtime : RuntimeNames) (tables : List Table) : List String :=
  if tables.isEmpty then [] else [runtime.dao, runtime.tableUtils]

/-- What a table needs imported: its class and what its id type mentions. -/
def tableImports (outDir : Path) (t : Table) : List ImportClause :=
  classImport outDir t.home t.name :: t.idType.imports.map (requestImport outDir)

/-- The class with the upgrade routines, when there are any to run. -/
def ownerImports (outDir : Path) (h : Helper) : List ImportClause :=
  match h.migration with
  | .upgrade plan => if plan.isEmpty then [] else [classImport outDir h.ownerHome h.ownerName]
  | .recreate => []

/-- The config writer next to the helper, when there is one. -/
def configImports (h : Helper) : List ImportClause :=
  if h.writesConfig then [.same ("./" ++ h.configName) h.configName] else []

/-- Everything a helper module imports. -/
def imports (runtime : RuntimeNames) (outDir : Path) (h : Helper) : List ImportClause :=
  (runtimeNames runtime ++ tableRuntimeNames runtime h.tables).map (.same runtime.home) ++
    h.tables.flatMap (tableImports outDir) ++ ownerImports outDir h ++ configImports h

/-! ## Shared pieces -/

/-- The type of a table's accessor. -/
def accessorType (runtime : RuntimeNames) (t : Table) : TypeExpr :=
  .generic runtime.dao [.name t.name, .verbatim t.idType.render]

/-- The parameters of the methods that work on a database. -/
def databaseParameters (runtime : RuntimeNames) : List Parameter :=
  [⟨"database", .name runtime.database⟩, ⟨"connectionSource", .name runtime.connectionSource⟩]

/-- The arguments for those parameters. -/
def databaseArguments : List Expr := [.name "database", .name "connectionSource"]

/-- A call of a method. -/
def invoke (target : Expr) (method : String) (arguments : List Expr) : Stmt :=
  .eval (.call (.member target method) arguments)

/-- The line that logs the start of a method. -/
def logStart (runtime : RuntimeNames) (className method : String) : Stmt :=
  invoke (.name runtime.log) "i" [.member (.name className) "name", .string method]

/-- The line that logs a failure. -/
def logFailure (runtime : RuntimeNames) (className message : String) : Stmt :=
  invoke (.name runtime.log) "e"
    [.member (.name className) "name", .string message, .name "e"]

/-- A call of the table utilities for each table. -/
def forTables (runtime : RuntimeNames) (method : String) (extra : List Expr)
    (tables : List Table) : List Stmt :=
  tables.map fun t =>
    invoke (.name runtime.tableUtils) method ([.name "connectionSource", .name t.name] ++ extra)

/-- What is logged when tables cannot be created. -/
def createFailed : String := "Can't create database tables."

/-- What is logged when tables cannot be cleared. -/
def clearFailed : String := "Can't clear database tables."

/-- What is logged when tables cannot be dropped. -/
def dropFailed : String := "Can't drop database tables."

/-! ## Members -/

/-- The field that holds a table's accessor. -/
def accessorField (runtime : RuntimeNames) (t : Table) : Member :=
  .field (Naming.accessorField t.name) (.orNull (accessorType runtime t)) .null

/-- The constructor: it opens the database file at the declared version. -/
def constructor (runtime : RuntimeNames) (h : Helper) : Member :=
  let config :=
    if h.writesConfig then
      [Expr.call (.member (.name h.configName) "getDatabaseConfigFile") []]
    else []
  .constructor [⟨"context", .name runtime.context⟩]
    [.eval (.call .super
      ([.name "context", .string (Naming.databaseFile h.name), .null, .number h.version] ++
        config))]

/-- The method that creates all tables. -/
def onCreate (runtime : RuntimeNames) (h : Helper) : Member :=
  .method ["override"] "onCreate" (databaseParameters runtime) (.name "void")
    [logStart runtime h.className "onCreate",
      .tryCatch (forTables runtime "createTable" [] h.tables) "e"
        [logFailure runtime h.className createFailed,
          .throw (.new "Error" [.string createFailed, .record "cause" (.name "e")])]]

/-- The condition under which a step is taken. -/
def guard (step : Step) : Expr :=
  match step.origin with
  | .unset => .compare .atMost (.name "version") (.number step.target)
  | .exact origin => .compare .equal (.name "version") (.number origin)

/-- The statement that takes a step when its condition holds.  Conditions are not
chained, so one run can take several steps. -/
def guarded (step : Step) : Stmt :=
  .ifThen (guard step)
    [invoke (.name "upgradeHelper") step.routine databaseArguments,
      .assign (.name "version") (.number step.target)]

/-- The statements that bring a database to the current version. -/
def upgradeBody (h : Helper) : List Stmt :=
  match h.migration with
  | .recreate =>
    [invoke .this "dropTables" databaseArguments, invoke .this "onCreate" databaseArguments]
  | .upgrade plan =>
    if plan.isEmpty then []
    else
      .const "upgradeHelper" (.new h.ownerName []) ::
        .letVar "version" (.name "oldVersion") :: plan.steps.map guarded

/-- The method that upgrades a database. -/
def onUpgrade (runtime : RuntimeNames) (h : Helper) : Member :=
  .method ["override"] "onUpgrade"
    (databaseParameters runtime ++ [⟨"oldVersion", .name "number"⟩, ⟨"newVersion", .name "number"⟩])
    (.name "void") (upgradeBody h)

/-- The method that empties all tables. -/
def clearTables (runtime : RuntimeNames) (h : Helper) : Member :=
  .method [] "clearTables" [] (.name "void")
    [logStart runtime h.className "clearTables",
      .tryCatch
        ([.const "connectionSource" (.call (.member .this "getConnectionSource") []),
          invoke (.name "connectionSource") "getReadWriteConnection" []] ++
          forTables runtime "clearTable" [] h.tables)
        "e" [logFailure runtime h.className clearFailed]]

/-- The method that drops all tables, when upgrades do so. -/
def dropTables (runtime : RuntimeNames) (h : Helper) : List Member :=
  match h.migration with
  | .upgrade _ => []
  | .recreate =>
    [.method ["private"] "dropTables" (databaseParameters runtime) (.name "void")
      [logStart runtime h.className "dropTables",
        .tryCatch (forTables runtime "dropTable" [.true] h.tables) "e"
          [logFailure runtime h.className dropFailed]]]

/-- The method that closes the database and forgets the accessors. -/
def close (h : Helper) : Member :=
  .method ["override"] "close" [] (.name "void")
    (invoke .super "close" [] :: h.tables.map fun t =>
      .assign (.member .this (Naming.accessorField t.name)) .null)

/-- The method that returns a table's accessor. -/
def accessorGetter (runtime : RuntimeNames) (t : Table) : Member :=
  let field := Expr.member .this (Naming.accessorField t.name)
  .method [] (Naming.accessorGetter t.name) [] (accessorType runtime t)
    [.ifThen (.compare .equal field .null)
      [.assign field (.call (.member .this "getDao") [.name t.name])],
      .return field]

/-- All members in order. -/
def members (runtime : RuntimeNames) (h : Helper) : List Member :=
  h.tables.map (accessorField runtime) ++
    [constructor runtime h, onCreate runtime h, onUpgrade runtime h, clearTables runtime h] ++
    dropTables runtime h ++ [close h] ++ h.tables.map (accessorGetter runtime)

end HelperModule

/-- The module of a helper. -/
def helperModule (runtime : RuntimeNames) (outDir : Path) (h : Helper) : ModuleCode where
  source := h.ownerName
  imports := HelperModule.imports runtime outDir h
  exported := ⟨h.className, runtime.openHelper, HelperModule.members runtime h⟩

end DaoGen.Emit
