set_option autoImplicit false

/-!
# Generated names

The names of generated classes, members and files follow from the declared name
of a database and from the class names of its tables.  A class name keeps the
ASCII letters and digits of the declared name and starts with a capital; file
names keep the declared name as it is.
-/

namespace DaoGen.Naming

/-- A text with its first character in upper case. -/
def capitalize : List Char → List Char
  | [] => []
  | c :: rest => c.toUpper :: rest

/-- The ASCII letters and digits of a name, the first one in upper case. -/
def sanitize (name : String) : String :=
  String.ofList (capitalize (name.toList.filter Char.isAlphanum))

/-- The class of the generated helper. -/
def helperClass (name : String) : String := sanitize name ++ "DatabaseHelper"

/-- The class of the generated config writer. -/
def configClass (name : String) : String := sanitize name ++ "DatabaseConfigUtil"

/-- The file of the database itself. -/
def databaseFile (name : String) : String := name ++ ".db"

/-- The directory that config files are written to. -/
def configDirectory : String := "db_config"

/-- The config file of a database. -/
def configFile (name : String) : String := name ++ "_config.txt"

/-- The field that holds the accessor of a table. -/
def accessorField (table : String) : String := "m" ++ table ++ "Dao"

/-- The method that returns the accessor of a table. -/
def accessorGetter (table : String) : String := "get" ++ table ++ "Dao"

/-- The file of a generated class. -/
def moduleFile (className : String) : String := className ++ ".ts"

end DaoGen.Naming
