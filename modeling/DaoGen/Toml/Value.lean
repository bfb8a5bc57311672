import DaoGen.Number.Binary64
set_option autoImplicit false

/-!
# TOML values

A TOML document is a table; a value keeps the stretch of the document it was written
in, so that a report can point at it.  Stretches count characters.
-/

namespace DaoGen.Toml

/-- A stretch of a document: the characters from `start` up to `stop`. -/
structure Range where
  start : Nat
  stop : Nat
  deriving DecidableEq, Repr, Inhabited

/-- A key as written. -/
structure Key where
  name : String
  range : Range
  deriving Repr, Inhabited

/-- A floating point value. -/
inductive Float where
  | nan
  | number (negative : Bool) (magnitude : Binary64)
  deriving Repr, Inhabited

/-- How a table came to be. -/
inductive TableForm where
  /-- by a header of its own -/
  | written
  /-- between braces, with all it will ever hold -/
  | complete
  /-- by being part of the header of another table -/
  | implied
  /-- by being part of a dotted key -/
  | dotted
  deriving DecidableEq, Repr, Inhabited

/-- A value. -/
inductive Value where
  | string (range : Range) (text : String)
  | integer (range : Range) (value : Int)
  | float (range : Range) (value : Float)
  | boolean (range : Range) (value : Bool)
  /-- a date, a time or both -/
  | dateTime (range : Range)
  | array (range : Range) (items : List Value)
  | table (range : Option Range) (form : TableForm) (entries : List (Key × Value))
  /-- tables that share a header, in order -/
  | tables (range : Range) (items : List Value)
  deriving Repr, Inhabited

/-- The entries of a table in the order they were made. -/
abbrev Entries := List (Key × Value)

/-- The stretch that a value was written in, if it was written in one. -/
def Value.range? : Value → Option Range
  | .string range _ | .integer range _ | .float range _ | .boolean range _ | .dateTime range
  | .array range _ | .tables range _ => some range
  | .table range _ _ => range

namespace Entries

/-- The value under a name. -/
def find? (name : String) (entries : Entries) : Option Value :=
  (List.find? (·.1.name = name) entries).map (·.2)

/-- The entries without the one under a name. -/
def remove (name : String) (entries : Entries) : Entries :=
  List.filter (·.1.name ≠ name) entries

/-- The entries with another value under a name. -/
def replace (name : String) (value : Value) (entries : Entries) : Entries :=
  List.map (fun entry => if entry.1.name = name then (entry.1, value) else entry) entries

/-- One more entry at the end; nothing when its name is taken. -/
def insert (key : Key) (value : Value) (entries : Entries) : Option Entries :=
  match find? key.name entries with
  | some _ => none
  | none => some (entries ++ [(key, value)])

end Entries

end DaoGen.Toml
