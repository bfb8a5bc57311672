import DaoGen.Sorted
import DaoGen.Upgrade.Step
set_option autoImplicit false

/-!
# Upgrade plans

A plan holds the steps of one database in the order in which they are tried.  A
run carries a version through them: each step whose guard holds at the current
version is performed and moves the version to its target.  The guards are not
chained, so one run can perform several steps.
-/

namespace DaoGen.Upgrade

namespace Step

/-- The order of steps: by target, open origins first, then by origin, then by the
routine's name. -/
def le (a b : Step) : Bool :=
  if a.target = b.target then
    if a.origin = b.origin then a.routine ≤ b.routine else a.origin.le b.origin
  else a.target ≤ b.target

end Step

/-- The steps of a database in the order in which they are tried. -/
structure Plan where
  /-- the declared version of the database -/
  target : Version
  steps : List Step
  deriving DecidableEq, Repr, Inhabited

/-- What a run through a plan has done. -/
structure Run where
  start : Version
  fired : List Step
  final : Version
  deriving DecidableEq, Repr, Inhabited

/-- The steps that fire from a version on, in order, and the version after them. -/
def runSteps : List Step → Version → List Step × Version
  | [], version => ([], version)
  | step :: rest, version =>
    if step.fires version then
      let (fired, final) := runSteps rest step.target
      (step :: fired, final)
    else runSteps rest version

@[simp] theorem runSteps_nil (version : Version) : runSteps [] version = ([], version) := rfl

theorem runSteps_cons (step : Step) (rest : List Step) (version : Version) :
    runSteps (step :: rest) version =
      if step.fires version then
        (step :: (runSteps rest step.target).1, (runSteps rest step.target).2)
      else runSteps rest version := rfl

namespace Plan

/-- The plan of the given steps. -/
def ofSteps (target : Version) (steps : List Step) : Plan :=
  ⟨target, sortBy Step.le steps⟩

/-- A plan without steps. -/
def isEmpty (p : Plan) : Bool := p.steps.isEmpty

/-- The run of a plan from a version. -/
def run (p : Plan) (start : Version) : Run :=
  let (fired, final) := runSteps p.steps start
  ⟨start, fired, final⟩

/-- Whether a run ends at the declared version. -/
def reached (p : Plan) (r : Run) : Bool := r.final = p.target

end Plan

/-- What becomes of an existing database. -/
inductive Migration where
  /-- every table is dropped and created again -/
  | recreate
  /-- the steps of a plan are run -/
  | upgrade (plan : Plan)
  deriving DecidableEq, Repr, Inhabited

namespace Migration

/-- The migration of a database: its steps are planned unless it drops its tables. -/
def ofDeclared (drops : Bool) (target : Version) (steps : List Step) : Migration :=
  if drops then recreate else upgrade (Plan.ofSteps target steps)

/-- The plan of a migration that has one. -/
def plan? : Migration → Option Plan
  | recreate => none
  | upgrade plan => some plan

end Migration

end DaoGen.Upgrade
