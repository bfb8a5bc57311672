import DaoGen.Naming
import DaoGen.Schema.Registry
import DaoGen.Upgrade.Plan
set_option autoImplicit false

/-!
# Helpers

A helper is a declared database that has passed every check: its name, its version,
the tables it manages and what becomes of an existing database.
-/

namespace DaoGen

/-- A database helper ready to be written. -/
structure Helper where
  /-- the database name as declared -/
  name : String
  version : Upgrade.Version
  tables : List Schema.Table
  drops : Bool
  writesConfig : Bool
  migration : Upgrade.Migration
  /-- the class that declares the helper -/
  owner : ClassId
  ownerName : String
  /-- the module that class is exported from -/
  ownerHome : ModuleName
  place : Place
  deriving Repr

namespace Helper

/-- The stem of every generated name. -/
def sanitized (h : Helper) : String := Naming.sanitize h.name

/-- The class of the helper's module. -/
def className (h : Helper) : String := Naming.helperClass h.name

/-- The class of the helper's config writer. -/
def configName (h : Helper) : String := Naming.configClass h.name

end Helper

end DaoGen
