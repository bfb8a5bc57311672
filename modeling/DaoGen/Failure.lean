import DaoGen.Diagnostic
set_option autoImplicit false

/-!
# Failures

What keeps a whole operation from giving a result.
-/

namespace DaoGen

/-- Why an operation gave no result. -/
inductive Failure where
  /-- a file or directory could not be used -/
  | unreadable (path : Path) (message : String)
  /-- the settings file is no document at all -/
  | malformedSettings (origin : Path)
  /-- the settings file is a document of the wrong form -/
  | settings (origin : Path) (message : String)
  /-- a source file has no reading -/
  | unparsed (path : Path)
  /-- declarations were rejected -/
  | rejected (diagnostics : List Diagnostic)
  | unknownHelper (name : String)
  | unsupportedLanguage (language : String)
  deriving Repr, Inhabited

namespace Failure

/-- The sentence that states a failure. -/
def message : Failure → String
  | unreadable path message => "Failed to read file '" ++ path.text ++ "': " ++ message
  | malformedSettings origin =>
    "Invalid configuration file '" ++ origin.text ++ "': TOML parse error"
  | settings origin message =>
    "Invalid configuration file '" ++ origin.text ++ "': " ++ message
  | unparsed path => "Failed to parse file: " ++ path.text
  | rejected diagnostics => s!"Generation failed with {diagnostics.length} error(s)"
  | unknownHelper name => s!"No helper named '{name}'"
  | unsupportedLanguage language => "Unsupported language: " ++ language

/-- The code of a failure. -/
def code : Failure → String
  | unreadable .. => "ormhelper::io::read_error"
  | malformedSettings _ | settings .. => "ormhelper::config::invalid"
  | unparsed _ => "ormhelper::parse::parse_failed"
  | rejected _ => "ormhelper::generation_failed"
  | unknownHelper _ => "ormhelper::analysis::unknown_helper"
  | unsupportedLanguage _ => "ormhelper::frontend::unsupported_language"

/-- Advice on how to mend a failure. -/
def help : Failure → Option String
  | malformedSettings _ | settings .. =>
    some ("See ormhelper.toml: keys \x60source_dir\x60, \x60out_dir\x60, \x60language\x60 " ++
      "and a \x60[runtime]\x60 table")
  | _ => none

end Failure

end DaoGen
