import DaoGen.Schema.Walk
set_option autoImplicit false

/-!
# The registry of tables

The registry holds every class declared as a table for which an id type was found,
in the order of the classes.
-/

namespace DaoGen

namespace Schema

/-- A table with its id type. -/
structure Table where
  id : ClassId
  name : String
  /-- the module the table's class is exported from -/
  home : ModuleName
  idType : IdType
  /-- the class that declares the identifying field -/
  declaredOn : ClassId
  deriving Repr, Inhabited

/-- The tables of a program, ascending by class. -/
structure Registry where
  tables : List Table
  deriving Repr, Inhabited

end Schema

/-! ## Over look-ups -/

namespace Lookup

open Schema

variable {m : Type → Type} [Monad m] (look : Lookup m)

/-- The table that a class makes once its id type is found. -/
def tableOf (id : ClassId) (c : ScannedClass) (found : Found) : m Table := do
  return ⟨id, c.name, ← look.homeOf id, found.idType, found.declaredOn⟩

/-- The registry of the tables declared on some classes. -/
def registry (declared : List ClassId) : m Registry := do
  let ids := (sortBy (fun a b => a ≤ b) declared).eraseReps
  let (answers, _) ← look.answers {} declared
  let found := declared.zip answers
  return ⟨← ids.filterMapM fun id => do
    let c ← look.classAt id
    match (found.lookup id).join with
    | none => return none
    | some found => return some (← look.tableOf id c found)⟩

end Lookup

/-! ## In a program -/

namespace Schema.Registry

/-- The table that a class makes once its id type is found. -/
def tableOf (p : Program) (id : ClassId) (found : Found) : Table :=
  p.lookup.tableOf id (p.classAt id) found

theorem tableOf_def (p : Program) (id : ClassId) (found : Found) :
    tableOf p id found =
      ⟨id, (p.classAt id).name, p.homeOf id, found.idType, found.declaredOn⟩ := rfl

/-- The registry of a program. -/
def ofProgram (p : Program) : Registry := p.lookup.registry p.tables

theorem ofProgram_def (p : Program) :
    ofProgram p =
      ⟨(sortBy (fun a b => a ≤ b) p.tables).eraseReps.filterMap fun id =>
        ((p.tables.zip (Walk.resolveAll p {} p.tables).1).lookup id).join.map (tableOf p id)⟩ := by
  refine congrArg Registry.mk (filterMapM_eq_pure (m := Id) fun id _ => ?_)
  show (match ((p.tables.zip (Walk.resolveAll p {} p.tables).1).lookup id).join with
    | none => _ | some found => _) = _
  cases ((p.tables.zip (Walk.resolveAll p {} p.tables).1).lookup id).join <;> rfl

/-- The table of a class. -/
def lookup (r : Registry) (id : ClassId) : Option Table := r.tables.find? (·.id = id)

end Schema.Registry

end DaoGen
