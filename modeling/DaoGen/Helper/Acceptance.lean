import DaoGen.Event
import DaoGen.Helper.Routine
import DaoGen.Helper.Spec
set_option autoImplicit false

/-!
# Acceptance of helpers

A helper declaration is checked on its own, together with the upgrade routines of
its class.  Every problem is collected: a declaration with any diagnostic makes no
helper, and one without makes exactly one.
-/

namespace DaoGen

open DaoGen.Upgrade DaoGen.Schema

namespace HelperDeclaration

/-- The declared version when it is one and not zero; the first when none is given. -/
def acceptVersion (h : HelperDeclaration) : Except Diagnostic Version :=
  match h.version with
  | none => .ok 1
  | some declared =>
    match Version.ofInt? declared.value with
    | some (v + 1) => .ok (v + 1)
    | _ => .error ⟨.invalidHelperVersion declared.value, declared.place⟩

/-- The table that an entry stands for. -/
def acceptTable (registry : Registry) (entry : TableEntry) : Except Diagnostic Table :=
  match entry.resolution with
  | .found id =>
    match registry.lookup id with
    | some table => .ok table
    | none => .error ⟨.missingTableId entry.written, entry.place⟩
  | .notFound => .error ⟨.missingTableId entry.written, entry.place⟩
  | .ambiguous count => .error ⟨.ambiguousTable entry.written count, entry.place⟩

/-- The warning about routines that a helper never runs because it drops its tables. -/
def dropWarning (name : String) (drops : Bool) (steps : List Step) : Option Event :=
  if drops && !steps.isEmpty then
    some ⟨.warning, "dropOnUpgrade is set; upgrade routines are ignored",
      [("helper", name), ("routines", toString steps.length)]⟩
  else none

/-- The values of a list of outcomes. -/
def values {ε α : Type} (outcomes : List (Except ε α)) : List α :=
  outcomes.filterMap Except.toOption

/-- The error of an outcome. -/
def error? {ε α : Type} : Except ε α → Option ε
  | .error e => some e
  | .ok _ => none

/-- The errors of a list of outcomes. -/
def errors {ε α : Type} (outcomes : List (Except ε α)) : List ε := outcomes.filterMap error?

/-- What checking one helper declaration gives. -/
structure Outcome where
  result : Except (List Diagnostic) Helper
  events : List Event

/-- What a declaration comes to, given what its class, its name, its tables and its routines were
found to be: a helper when nothing is wrong. -/
def conclude (h : HelperDeclaration) (owner : ScannedClass) (home : ModuleName)
    (name : Except Diagnostic String) (tables : List Table) (steps : List Step)
    (problems : List Diagnostic) (warnings : List Event) : Outcome :=
  match name, acceptVersion h with
  | .ok name, .ok version =>
    if problems.isEmpty then
      ⟨.ok {
        name, version, tables
        drops := h.drops
        writesConfig := h.writesConfig
        migration := .ofDeclared h.drops version steps
        owner := h.owner
        ownerName := owner.name
        ownerHome := home
        place := h.place }, warnings ++ (dropWarning name h.drops steps).toList⟩
    else ⟨.error problems, warnings⟩
  | _, _ => ⟨.error problems, warnings⟩

end HelperDeclaration

/-! ## Over look-ups -/

namespace Lookup

open HelperDeclaration

variable {m : Type → Type} [Monad m] (look : Lookup m) (registry : Registry)
  (runtime : RuntimeNames) (h : HelperDeclaration) (routines : List RoutineDeclaration)

/-- What is wrong with the class of a helper. -/
def ownerDiagnostics : m (List Diagnostic) := do
  let owner ← look.classAt h.owner
  if owner.isAbstract then return [⟨.abstractHelper owner.name, owner.place⟩]
  else if ← look.canMake h.owner then return []
  else return [⟨.missingEmptyConstructor owner.name, owner.place⟩]

/-- The declared name when a class name can be made of it. -/
def acceptName : m (Except Diagnostic String) := do
  let owner ← look.classAt h.owner
  match h.name with
  | none => return .error ⟨.missingHelperName owner.name, h.place⟩
  | some name =>
    if Naming.sanitize name.value = "" then
      return .error ⟨.invalidHelperName name.value, name.place⟩
    else return .ok name.value

/-- The warning about a table whose class the generated import cannot reach. -/
def tableWarning (table : Table) : m (Option Event) := do
  let c ← look.classAt table.id
  return if c.exported then none
    else some ⟨.warning,
      "table class is not exported; the generated import will not resolve",
      [("table", table.name)]⟩

/-- The warning about a helper whose class the generated import cannot reach. -/
def ownerWarning : m (Option Event) := do
  let owner ← look.classAt h.owner
  return if owner.exported then none
    else some ⟨.warning,
      "helper class is not exported; the generated import will not resolve",
      [("class", owner.name)]⟩

/-- Everything that is wrong with a declaration, in the order of the checks. -/
def diagnostics : m (List Diagnostic) := do
  let owner ← look.ownerDiagnostics h
  let name ← look.acceptName h
  return h.issues.map (·.diagnostic) ++ owner ++ (error? name).toList ++
    (error? (acceptVersion h)).toList ++ errors (h.tables.map (acceptTable registry)) ++
    errors (routines.map (·.accept runtime))

/-- Checks a helper declaration with the routines of its class. -/
def accept : m Outcome := do
  let owner ← look.classAt h.owner
  let home ← look.homeOf h.owner
  let name ← look.acceptName h
  let tables := values (h.tables.map (acceptTable registry))
  let steps := values (routines.map (·.accept runtime))
  let problems ← look.diagnostics registry runtime h routines
  let tableWarnings ← tables.filterMapM look.tableWarning
  let ownerWarning ← look.ownerWarning h
  return h.conclude owner home name tables steps problems (tableWarnings ++ ownerWarning.toList)

end Lookup

/-! ## In a program -/

namespace HelperDeclaration

variable (p : Program) (registry : Registry) (runtime : RuntimeNames) (h : HelperDeclaration)
  (routines : List RoutineDeclaration)

/-- What is wrong with the class of a helper. -/
def ownerDiagnostics : List Diagnostic := p.lookup.ownerDiagnostics h

theorem ownerDiagnostics_def :
    ownerDiagnostics p h =
      if (p.classAt h.owner).isAbstract then
        [⟨.abstractHelper (p.classAt h.owner).name, (p.classAt h.owner).place⟩]
      else if p.canMake h.owner then []
      else [⟨.missingEmptyConstructor (p.classAt h.owner).name, (p.classAt h.owner).place⟩] :=
  rfl

/-- The declared name when a class name can be made of it. -/
def acceptName : Except Diagnostic String := p.lookup.acceptName h

theorem acceptName_def :
    acceptName p h =
      match h.name with
      | none => .error ⟨.missingHelperName (p.classAt h.owner).name, h.place⟩
      | some name =>
        if Naming.sanitize name.value = "" then
          .error ⟨.invalidHelperName name.value, name.place⟩
        else .ok name.value :=
  rfl

/-- The warning about a table whose class the generated import cannot reach. -/
def tableWarning (table : Table) : Option Event := p.lookup.tableWarning table

theorem tableWarning_def (table : Table) :
    tableWarning p table =
      if (p.classAt table.id).exported then none
      else some ⟨.warning,
        "table class is not exported; the generated import will not resolve",
        [("table", table.name)]⟩ :=
  rfl

/-- The warning about a helper whose class the generated import cannot reach. -/
def ownerWarning : Option Event := p.lookup.ownerWarning h

theorem ownerWarning_def :
    ownerWarning p h =
      if (p.classAt h.owner).exported then none
      else some ⟨.warning,
        "helper class is not exported; the generated import will not resolve",
        [("class", (p.classAt h.owner).name)]⟩ :=
  rfl

/-- Everything that is wrong with a declaration, in the order of the checks. -/
def diagnostics : List Diagnostic := p.lookup.diagnostics registry runtime h routines

theorem diagnostics_def :
    diagnostics p registry runtime h routines =
      h.issues.map (·.diagnostic) ++ ownerDiagnostics p h ++ (error? (acceptName p h)).toList ++
        (error? (acceptVersion h)).toList ++ errors (h.tables.map (acceptTable registry)) ++
        errors (routines.map (·.accept runtime)) :=
  rfl

/-- Checks a helper declaration with the routines of its class. -/
def accept : Outcome := p.lookup.accept registry runtime h routines

theorem accept_def :
    accept p registry runtime h routines =
      h.conclude (p.classAt h.owner) (p.homeOf h.owner) (acceptName p h)
        (values (h.tables.map (acceptTable registry))) (values (routines.map (·.accept runtime)))
        (diagnostics p registry runtime h routines)
        ((values (h.tables.map (acceptTable registry))).filterMap (tableWarning p) ++
          (ownerWarning p h).toList) := by
  have hwarnings : ∀ tables : List Table,
      tables.filterMapM p.lookup.tableWarning = pure (tables.filterMap (tableWarning p)) :=
    fun _ => filterMapM_eq_pure fun _ _ => rfl
  unfold accept Lookup.accept
  dsimp only
  rw [hwarnings]
  rfl

end HelperDeclaration

end DaoGen
