import DaoGen.Place
set_option autoImplicit false

/-!
# Diagnostics

A diagnostic is a complaint about a declaration with the place it is about.  Its
message, code, help and label are functions of the complaint.
-/

namespace DaoGen

/-- What can be wrong with a declaration. -/
inductive Complaint where
  | invalidArgument (decorator argument expected : String)
  | missingEmptyConstructor (owner : String)
  | abstractHelper (owner : String)
  | missingHelperName (owner : String)
  | invalidHelperName (name : String)
  | invalidHelperVersion (version : Int)
  | missingTableId (table : String)
  | ambiguousTable (table : String) (count : Nat)
  | duplicateHelper (owner first generated : String)
  | upgradeOutsideHelper (method : String)
  | upgradeModifiers (method modifier : String)
  | upgradeParameterCount (method : String) (found : Nat) (database connection : String)
  | upgradeFirstParameter (method expected : String)
  | upgradeSecondParameter (method expected : String)
  | missingToVersion (method : String)
  | invalidUpgradeVersion (method argument : String) (value : Int)
  deriving DecidableEq, Repr, Inhabited

namespace Complaint

/-- The sentence that states a complaint. -/
def message : Complaint → String
  | invalidArgument decorator argument expected =>
    s!"Invalid argument \x60{argument}\x60 in @{decorator}: expected {expected}"
  | missingEmptyConstructor _ => "Class annotated with @Helper must have empty constructor."
  | abstractHelper _ => "Class annotated with @Helper must not be abstract."
  | missingHelperName owner => s!"@Helper on '{owner}' is missing the \x60name\x60 argument"
  | invalidHelperName name => s!"@Helper name '{name}' has no alphanumeric characters"
  | invalidHelperVersion version => s!"@Helper version must be at least 1, found {version}"
  | missingTableId _ =>
    "@Helper tables must contain classes annotated with @DatabaseTable with one id field " ++
      "annotated with @DatabaseField (can be inherited)."
  | ambiguousTable table count =>
    s!"@Helper table '{table}' must be uniquely resolvable, but it is declared {count} times"
  | duplicateHelper owner first generated =>
    s!"@Helper '{owner}' generates '{generated}', which is already generated for '{first}'"
  | upgradeOutsideHelper _ =>
    "Method annotated with @OnUpgrade must be inside class annotated with @Helper."
  | upgradeModifiers _ _ =>
    "Method annotated with @OnUpgrade must be public non-static method returning void."
  | upgradeParameterCount _ _ database connection =>
    "Method annotated with @OnUpgrade must have 2 parameters -> (" ++ database ++
      " database, " ++ connection ++ " connectionSource)."
  | upgradeFirstParameter _ expected =>
    "Method annotated with @OnUpgrade must have 1st parameter of type " ++ expected ++ "."
  | upgradeSecondParameter _ expected =>
    "Method annotated with @OnUpgrade must have 2nd parameter of type " ++ expected ++ "."
  | missingToVersion method => s!"@OnUpgrade on '{method}' is missing \x60toVersion\x60"
  | invalidUpgradeVersion method argument value =>
    s!"@OnUpgrade on '{method}' has invalid {argument} {value}"

/-- The code of a complaint. -/
def code : Complaint → String
  | invalidArgument .. => "ormhelper::declaration::invalid_argument"
  | missingEmptyConstructor _ => "ormhelper::helper::missing_empty_constructor"
  | abstractHelper _ => "ormhelper::helper::abstract_class"
  | missingHelperName _ => "ormhelper::helper::missing_name"
  | invalidHelperName _ => "ormhelper::helper::invalid_name"
  | invalidHelperVersion _ => "ormhelper::helper::invalid_version"
  | missingTableId _ => "ormhelper::helper::missing_identifier"
  | ambiguousTable .. => "ormhelper::helper::ambiguous_table"
  | duplicateHelper .. => "ormhelper::helper::duplicate_name"
  | upgradeOutsideHelper _ => "ormhelper::upgrade::outside_helper"
  | upgradeModifiers .. => "ormhelper::upgrade::modifiers"
  | upgradeParameterCount .. => "ormhelper::upgrade::parameter_count"
  | upgradeFirstParameter .. => "ormhelper::upgrade::first_parameter"
  | upgradeSecondParameter .. => "ormhelper::upgrade::second_parameter"
  | missingToVersion _ => "ormhelper::upgrade::missing_to_version"
  | invalidUpgradeVersion .. => "ormhelper::upgrade::invalid_version"

/-- Advice on how to mend what a complaint is about. -/
def help : Complaint → Option String
  | missingEmptyConstructor owner =>
    some ("Add \x60constructor() \x7b\x7d\x60 to '" ++ owner ++
      "' or make every constructor parameter optional")
  | abstractHelper owner => some s!"The generated migration routine instantiates '{owner}'"
  | invalidHelperName _ =>
    some "Generated class names are built from the alphanumeric characters of the name"
  | missingTableId table =>
    some ("'" ++ table ++ "' needs @DatabaseTable and a field marked " ++
      "\x60@DatabaseField(\x7b id: true \x7d)\x60 or " ++
      "\x60@DatabaseField(\x7b generatedId: true \x7d)\x60")
  | duplicateHelper .. => some "Give each @Helper a distinct name"
  | invalidUpgradeVersion .. =>
    some ("Versions are non-negative; omit \x60fromVersion\x60 (or use -1) " ++
      "to upgrade from any older version")
  | _ => none

/-- What is written under the place of a complaint. -/
def label : Complaint → String
  | invalidArgument .. => "here"
  | missingEmptyConstructor _ => "no zero-argument constructor"
  | abstractHelper _ => "abstract helper class"
  | missingHelperName _ => "add \x60name: \"...\"\x60"
  | invalidHelperName _ => "unusable name"
  | invalidHelperVersion _ => "invalid version"
  | missingTableId _ => "no identifier field found for this table"
  | ambiguousTable .. => "ambiguous table reference"
  | duplicateHelper .. => "duplicate helper name"
  | upgradeOutsideHelper method => s!"'{method}' is not in a @Helper class"
  | upgradeModifiers method modifier => s!"'{method}' is {modifier}"
  | upgradeParameterCount _ found _ _ => s!"{found} parameter(s)"
  | upgradeFirstParameter _ expected => "expected " ++ expected
  | upgradeSecondParameter _ expected => "expected " ++ expected
  | missingToVersion _ => "add \x60toVersion: N\x60"
  | invalidUpgradeVersion .. => "invalid version"

end Complaint

/-- A complaint with the place it is about. -/
structure Diagnostic where
  complaint : Complaint
  place : Place
  deriving Repr, Inhabited

end DaoGen
