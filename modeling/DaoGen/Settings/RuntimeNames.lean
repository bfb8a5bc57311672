set_option autoImplicit false

/-!
# Names of the storage runtime

Generated modules import these names from the runtime's module.  Upgrade routines
are held against the database and the connection source by exact identity.
-/

namespace DaoGen

/-- The runtime's module and the names it exports. -/
structure RuntimeNames where
  home : String := "@ormhelper/runtime"
  context : String := "Context"
  database : String := "SQLiteDatabase"
  connectionSource : String := "ConnectionSource"
  openHelper : String := "OrmLiteSqliteOpenHelper"
  dao : String := "Dao"
  tableUtils : String := "TableUtils"
  log : String := "Log"
  configUtil : String := "OrmLiteConfigUtil"
  deriving DecidableEq, Repr, Inhabited

end DaoGen
