import DaoGen.Diagnostic
import DaoGen.Program.Basic
import DaoGen.Settings.RuntimeNames
import DaoGen.Upgrade.Step
set_option autoImplicit false

/-!
# Upgrade routines

A routine is accepted when it is a public instance method without a result that
takes the runtime's database and connection source, and when its versions are in
range.  The checks come in this order and the first that fails is reported.
-/

namespace DaoGen

/-- The diagnostic of an argument without usable value. -/
def ArgumentIssue.diagnostic (issue : ArgumentIssue) : Diagnostic :=
  ⟨.invalidArgument issue.decorator issue.argument issue.expected, issue.place⟩

namespace RoutineDeclaration

open DaoGen.Upgrade

/-- What the runtime's exported name stands for. -/
def runtimeIdentity (runtime : RuntimeNames) (name : String) : Identity :=
  ⟨.package runtime.home, name⟩

/-- The complaint about a routine's modifiers. -/
def checkModifiers (r : RoutineDeclaration) : Except Diagnostic Unit :=
  match r.rejected with
  | some modifier => throw ⟨.upgradeModifiers r.method modifier, r.place⟩
  | none => pure ()

/-- The two parameters of a routine. -/
def twoParameters (runtime : RuntimeNames) (r : RoutineDeclaration) :
    Except Diagnostic (RoutineParameter × RoutineParameter) :=
  match r.parameters with
  | [first, second] => pure (first, second)
  | others =>
    throw ⟨.upgradeParameterCount r.method others.length runtime.database
      runtime.connectionSource, r.place⟩

/-- Demands that a parameter's type is an exported name of the runtime. -/
def checkParameter (runtime : RuntimeNames) (parameter : RoutineParameter) (name : String)
    (complaint : Complaint) : Except Diagnostic Unit :=
  if parameter.identity == some (runtimeIdentity runtime name) then pure ()
  else throw ⟨complaint, parameter.place⟩

/-- Demands that every argument had a usable value. -/
def checkIssues (r : RoutineDeclaration) : Except Diagnostic Unit :=
  match r.issues with
  | [] => pure ()
  | issue :: _ => throw issue.diagnostic

/-- The declared target version. -/
def targetVersion (r : RoutineDeclaration) : Except Diagnostic Version :=
  match r.toVersion with
  | none => throw ⟨.missingToVersion r.method, r.decoratorPlace⟩
  | some declared =>
    match Version.ofInt? declared.value with
    | some version => pure version
    | none =>
      throw ⟨.invalidUpgradeVersion r.method "toVersion" declared.value, declared.place⟩

/-- The declared origin; one that is not given is open. -/
def originVersion (r : RoutineDeclaration) : Except Diagnostic Origin :=
  match r.fromVersion with
  | none => pure .unset
  | some declared =>
    match Origin.ofDeclared? declared.value with
    | some origin => pure origin
    | none =>
      throw ⟨.invalidUpgradeVersion r.method "fromVersion" declared.value, declared.place⟩

/-- The step that a routine makes, or the first thing that is wrong with it. -/
def accept (runtime : RuntimeNames) (r : RoutineDeclaration) : Except Diagnostic Step := do
  checkModifiers r
  let (first, second) ← twoParameters runtime r
  checkParameter runtime first runtime.database
    (.upgradeFirstParameter r.method runtime.database)
  checkParameter runtime second runtime.connectionSource
    (.upgradeSecondParameter r.method runtime.connectionSource)
  checkIssues r
  let target ← targetVersion r
  let origin ← originVersion r
  return { origin, target, routine := r.method }

end RoutineDeclaration

end DaoGen
