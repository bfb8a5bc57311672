import DaoGen.Emit.Printer
import DaoGen.ImportBlock
set_option autoImplicit false

/-!
# Generated modules

A generated module says what it was generated from, imports what it needs and
exports one class; some statements may follow the class.
-/

namespace DaoGen.Emit

/-- A generated module. -/
structure ModuleCode where
  /-- the class whose declaration the module is generated from -/
  source : String
  imports : List ImportClause
  exported : ClassCode
  trailer : List Stmt := []
  deriving Repr, Inhabited

namespace ModuleCode

/-- The first lines of a generated module. -/
def header (source : String) : String :=
  "// Generated by ormhelper from " ++ source ++ ". Do not edit.\n\n"

/-- The text of a module. -/
def render (m : ModuleCode) : String :=
  header m.source ++ ImportBlock.render m.imports ++ "\n" ++ m.exported.render ++
    if m.trailer.isEmpty then "" else "\n" ++ Stmt.renderAll 0 m.trailer

end ModuleCode

end DaoGen.Emit
