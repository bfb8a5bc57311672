import DaoGen.Failure
import DaoGen.Number.Shortest
import DaoGen.Settings.Basic
import DaoGen.Text.Visible
import DaoGen.Toml.Document
import DaoGen.Toml.Report
set_option autoImplicit false

/-!
# Reading settings

A settings file is a TOML document with four fields, each of which may be left out.
Entries are read in the order they were made, and the first that does not fit is
reported where it stands.
-/

namespace DaoGen.Settings

open Toml (Entries Range Value)

/-! ## What does not fit -/

/-- Why an entry does not fit. -/
inductive Cause where
  /-- the name is none of the known ones -/
  | unknownField (name : String) (known : List String)
  | wrongKind (found expected : String)
  deriving DecidableEq, Repr, Inhabited

/-- An entry that does not fit. -/
structure Misfit where
  cause : Cause
  range : Range
  deriving DecidableEq, Repr, Inhabited

/-- A name between backticks. -/
def ticked (name : String) : String := "\x60" ++ name ++ "\x60"

/-- The sentence that states a cause. -/
def Cause.message : Cause → String
  | unknownField name known =>
    "unknown field " ++ ticked name ++ ", expected one of " ++
      String.intercalate ", " (known.map ticked)
  | wrongKind found expected => "invalid type: " ++ found ++ ", expected " ++ expected

/-- How a floating point value is shown. -/
def showFloat : Toml.Float → String
  | .nan => "NaN"
  | .number negative magnitude =>
    let digits := match magnitude with
      | .infinite => "inf"
      | .finite m exponent => (Binary64.shortest m exponent).positional
    if negative then "-" ++ digits else digits

/-- How a value of the wrong kind is called. -/
def describe : Value → String
  | .string _ text => "string " ++ Text.showVisible text
  | .integer _ value => "integer " ++ ticked (toString value)
  | .float _ value => "floating point " ++ ticked (showFloat value)
  | .boolean _ value => "boolean " ++ ticked (toString value)
  | .array .. | .tables .. => "sequence"
  | .dateTime _ | .table .. => "map"

/-! ## Values -/

/-- A value that has to be a text.  A value that was written nowhere is reported where
`place` is. -/
def readText (expected : String) (place : Range) : Value → Except Misfit String
  | .string _ text => .ok text
  | value => .error ⟨.wrongKind (describe value) expected, value.range?.getD place⟩

/-- The fields of the runtime in the order of an array of names. -/
def runtimeFields : List (String × (RuntimeNames → String → RuntimeNames)) :=
  [("module", fun r s => { r with home := s }),
   ("context", fun r s => { r with context := s }),
   ("database", fun r s => { r with database := s }),
   ("connection_source", fun r s => { r with connectionSource := s }),
   ("open_helper", fun r s => { r with openHelper := s }),
   ("dao", fun r s => { r with dao := s }),
   ("table_utils", fun r s => { r with tableUtils := s }),
   ("log", fun r s => { r with log := s }),
   ("config_util", fun r s => { r with configUtil := s })]

/-- Names of the runtime from a table. -/
def readRuntimeTable (entries : Entries) : Except Misfit RuntimeNames :=
  entries.foldlM (fun names (key, value) =>
    match runtimeFields.find? (·.1 = key.name) with
    | some (_, set) => return set names (← readText "a string" key.range value)
    | none => throw ⟨.unknownField key.name (runtimeFields.map (·.1)), key.range⟩) {}

/-- Names of the runtime from an array; those it leaves out keep their defaults. -/
def readRuntimeArray (place : Range) (items : List Value) : Except Misfit RuntimeNames :=
  (runtimeFields.zip items).foldlM (fun names ((_, set), value) => do
    return set names (← readText "a string" place value)) {}

/-- The field of its own that a date and time is seen as a table with. -/
def dateTimeField : String := "$__toml_private_datetime"

/-- Names of the runtime. -/
def readRuntime (place : Range) : Value → Except Misfit RuntimeNames
  | .table _ _ entries => readRuntimeTable entries
  | .array range items | .tables range items => readRuntimeArray range items
  | .dateTime range => .error ⟨.unknownField dateTimeField (runtimeFields.map (·.1)), range⟩
  | value =>
    .error ⟨.wrongKind (describe value) "struct RuntimeProfile", value.range?.getD place⟩

/-! ## Settings -/

/-- The fields of a settings file. -/
def fields : List String := ["source_dir", "out_dir", "language", "runtime"]

/-- Settings with one more entry read. -/
def readEntry (s : Settings) (key : Toml.Key) (value : Value) : Except Misfit Settings :=
  match key.name with
  | "source_dir" => return { s with sourceDir := ⟨← readText "path string" key.range value⟩ }
  | "out_dir" => return { s with outDir := ⟨← readText "path string" key.range value⟩ }
  | "language" => return { s with language := ← readText "a string" key.range value }
  | "runtime" => return { s with runtime := ← readRuntime key.range value }
  | name => throw ⟨.unknownField name fields, key.range⟩

/-- The settings that a document makes. -/
def ofEntries (entries : Entries) : Except Misfit Settings :=
  entries.foldlM (fun s (key, value) => readEntry s key value) {}

/-- The settings in a text; `origin` is where the text comes from. -/
def ofText (origin : Path) (text : String) : Except Failure Settings :=
  match Toml.parse? text.toList with
  | none => .error (.malformedSettings origin)
  | some entries =>
    match ofEntries entries with
    | .ok s => .ok s
    | .error misfit =>
      .error (.settings origin (Toml.report text.toList misfit.range misfit.cause.message))

end DaoGen.Settings
