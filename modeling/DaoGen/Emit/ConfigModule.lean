import DaoGen.Emit.HelperModule
set_option autoImplicit false

/-!
# The config module

The config writer of a helper is run by hand after generation; the helper itself only
asks it where its file is.
-/

namespace DaoGen.Emit

namespace ConfigModule

/-- Everything a config module imports. -/
def imports (runtime : RuntimeNames) (outDir : Path) (h : Helper) : List ImportClause :=
  ["existsSync", "mkdirSync", "writeFileSync"].map (.same "node:fs") ++
    [.same "node:path" "join", .same runtime.home runtime.configUtil] ++
    h.tables.map fun t => HelperModule.classImport outDir t.home t.name

/-- The constant with the classes of all tables. -/
def tableClasses (h : Helper) : Member :=
  .constant "sTableClasses" (.array (h.tables.map fun t => .name t.name))

/-- A call of a plain function. -/
def callOf (function : String) (arguments : List Expr) : Expr := .call (.name function) arguments

/-- The method that makes the config file if need be and returns where it is. -/
def configFileMember (h : Helper) : Member :=
  .method ["static"] "getDatabaseConfigFile" [] (.name "string")
    [.const "dir" (callOf "join"
        [.call (.member (.name "process") "cwd") [], .string Naming.configDirectory]),
      .const "file" (callOf "join" [.name "dir", .string (Naming.configFile h.name)]),
      .tryCatch
        [.eval (callOf "mkdirSync" [.name "dir", .record "recursive" .true]),
          .ifThen (.not (callOf "existsSync" [.name "file"]))
            [.eval (callOf "writeFileSync" [.name "file", .string ""])]]
        "e" [HelperModule.invoke (.name "console") "error" [.name "e"]],
      .return (.name "file")]

/-- The method that writes the config file. -/
def mainMember (h : Helper) : Member :=
  .method ["static"] "main" [] (.name "void")
    [HelperModule.invoke (.name h.configName) "writeConfigFile"
      [.call (.member (.name h.configName) "getDatabaseConfigFile") [],
        .member (.name h.configName) "sTableClasses"]]

end ConfigModule

/-- The config module of a helper. -/
def configModule (runtime : RuntimeNames) (outDir : Path) (h : Helper) : ModuleCode where
  source := h.ownerName
  imports := ConfigModule.imports runtime outDir h
  exported := ⟨h.configName, runtime.configUtil,
    [ConfigModule.tableClasses h, ConfigModule.configFileMember h, ConfigModule.mainMember h]⟩
  trailer :=
    [.ifThen (.member (.member (.name "import") "meta") "main")
      [HelperModule.invoke (.name h.configName) "main" []]]

end DaoGen.Emit
