import DaoGen.Proofs.Emit.Bindings
set_option autoImplicit false

/-!
# What a helper's class uses

Generated code refers to something by a name or by a type that is copied from a source
(`Reference`).  Each reference of a helper's class stands for something: an entity that the module
can import, the id type of a table, or a name that the class brings along itself (`Use`).  The
references of the class are what is printed for its uses, one after the other
(`HelperModule.references_helperModule`), so the list of uses leaves no reference out.

The functions that emit the members decide one by one what they print.  `HasReason` says when an
entity is used at all, and nothing else is (`HelperModule.hasReason_of_mem_uses`).
-/

namespace DaoGen

open DaoGen.Schema

namespace Emit

/-! ## References in generated code -/

/-- What stands in generated code at a place that refers to something. -/
inductive Reference where
  | name (text : String)
  /-- a type as it was written in a source -/
  | type (text : String)
  deriving DecidableEq, Repr, Inhabited

namespace TypeExpr

mutual

/-- The references of a type, in the order in which they are printed. -/
def references : TypeExpr → List Reference
  | .name text => [.name text]
  | .verbatim text => [.type text]
  | .generic head arguments => .name head :: referencesAll arguments
  | .orNull type => references type

/-- The references of a list of types. -/
def referencesAll : List TypeExpr → List Reference
  | [] => []
  | type :: rest => references type ++ referencesAll rest

end

end TypeExpr

namespace Expr

mutual

/-- The references of an expression.  The name of a property refers to nothing by itself. -/
def references : Expr → List Reference
  | .name text => [.name text]
  | .this | .super | .null | .true | .number _ | .string _ => []
  | .member target _ => references target
  | .call callee arguments => references callee ++ referencesAll arguments
  | .new constructor arguments => .name constructor :: referencesAll arguments
  | .array elements => referencesAll elements
  | .record _ value => references value
  | .not operand => references operand
  | .compare _ left right => references left ++ references right

/-- The references of a list of expressions. -/
def referencesAll : List Expr → List Reference
  | [] => []
  | expr :: rest => references expr ++ referencesAll rest

end

end Expr

namespace Stmt

mutual

/-- The references of a statement.  The name that a statement declares is none. -/
def references : Stmt → List Reference
  | .eval expr => expr.references
  | .const _ value => value.references
  | .letVar _ value => value.references
  | .assign target value => target.references ++ value.references
  | .ifThen condition body => condition.references ++ referencesAll body
  | .tryCatch body _ handler => referencesAll body ++ referencesAll handler
  | .throw value => value.references
  | .return value => value.references

/-- The references of a list of statements. -/
def referencesAll : List Stmt → List Reference
  | [] => []
  | stmt :: rest => references stmt ++ referencesAll rest

end

theorem referencesAll_eq_flatMap (stmts : List Stmt) :
    referencesAll stmts = stmts.flatMap references := by
  induction stmts with
  | nil => rfl
  | cons stmt rest ih => rw [referencesAll, ih, List.flatMap_cons]

end Stmt

/-- The references of a member. -/
def Member.references : Member → List Reference
  | .field _ type value => type.references ++ value.references
  | .constant _ value => value.references
  | .constructor parameters body =>
    parameters.flatMap (·.type.references) ++ Stmt.referencesAll body
  | .method _ _ parameters result body =>
    parameters.flatMap (·.type.references) ++ result.references ++ Stmt.referencesAll body

/-- The references of a class: its parent and those of its members. -/
def ClassCode.references (c : ClassCode) : List Reference :=
  .name c.parent :: c.members.flatMap (·.references)

/-! ## What the references of a helper's class stand for -/

/-- What a helper's module can import. -/
inductive Entity where
  /-- a name of the runtime -/
  | runtime (name : String)
  /-- the class of a table -/
  | table (t : Table)
  /-- the class with the upgrade routines -/
  | owner
  /-- the config writer -/
  | config
  /-- what an id type asks for -/
  | request (r : ImportRequest)

/-- What is used at a place of a helper's class. -/
inductive Use where
  | entity (e : Entity)
  /-- the id type of a table -/
  | idType (t : Table)
  /-- the class itself, a parameter or variable of a method, or a global name -/
  | own (name : String)

namespace HelperModule

variable (runtime : RuntimeNames) (outDir : Path) (h : Helper)

/-- The clause that binds an entity. -/
def clauseOf : Entity → ImportClause
  | .runtime name => .same runtime.home name
  | .table t => classImport outDir t.home t.name
  | .owner => classImport outDir h.ownerHome h.ownerName
  | .config => configClause h
  | .request r => requestImport outDir r

/-- What is printed where something is used. -/
def referenceOf : Use → Reference
  | .entity e => .name (clauseOf runtime outDir h e).localName
  | .idType t => .type t.idType.render
  | .own name => .name name

/-- Names that the methods of a helper's class declare themselves. -/
def localNames : List String :=
  ["context", "database", "connectionSource", "oldVersion", "version", "upgradeHelper", "e"]

/-- Names that need no declaration. -/
def globalNames : List String := ["void", "number", "Error"]

/-! ### Uses, member by member -/

/-- What the type of an accessor uses. -/
def accessorTypeUses (t : Table) : List Use :=
  [.entity (.runtime runtime.dao), .entity (.table t), .idType t]

/-- What the parameters of the methods that work on a database use. -/
def databaseUses : List Use :=
  [.entity (.runtime runtime.database), .entity (.runtime runtime.connectionSource)]

/-- What the line that logs the start of a method uses. -/
def startUses : List Use := [.entity (.runtime runtime.log), .own h.className]

/-- What the line that logs a failure uses. -/
def failureUses : List Use := [.entity (.runtime runtime.log), .own h.className, .own "e"]

/-- What the calls of the table utilities use. -/
def forTablesUses (tables : List Table) : List Use :=
  tables.flatMap fun t =>
    [.entity (.runtime runtime.tableUtils), .own "connectionSource", .entity (.table t)]

/-- What the constructor uses. -/
def constructorUses : List Use :=
  .entity (.runtime runtime.context) :: .own "context" ::
    if h.writesConfig then [.entity .config] else []

/-- What the method that creates all tables uses. -/
def onCreateUses : List Use :=
  databaseUses runtime ++ [.own "void"] ++ startUses runtime h ++ forTablesUses runtime h.tables ++
    failureUses runtime h ++ [.own "Error", .own "e"]

/-- What the arguments of the methods that work on a database use. -/
def argumentUses : List Use := [.own "database", .own "connectionSource"]

/-- What a step of an upgrade uses. -/
def stepUses : List Use :=
  .own "version" :: .own "upgradeHelper" :: argumentUses ++ [.own "version"]

/-- What an upgrade uses. -/
def upgradeUses : List Use :=
  match h.migration with
  | .recreate => argumentUses ++ argumentUses
  | .upgrade plan =>
    if plan.isEmpty then []
    else
      .entity .owner :: .own "oldVersion" :: plan.steps.flatMap fun _ => stepUses

/-- What the method that upgrades a database uses. -/
def onUpgradeUses : List Use :=
  databaseUses runtime ++ [.own "number", .own "number", .own "void"] ++ upgradeUses h

/-- What the method that empties all tables uses. -/
def clearTablesUses : List Use :=
  [.own "void"] ++ startUses runtime h ++ [.own "connectionSource"] ++
    forTablesUses runtime h.tables ++ failureUses runtime h

/-- What the method that drops all tables uses, if there is one. -/
def dropTablesUses : List Use :=
  match h.migration with
  | .upgrade _ => []
  | .recreate =>
    databaseUses runtime ++ [.own "void"] ++ startUses runtime h ++
      forTablesUses runtime h.tables ++ failureUses runtime h

/-- What the method that returns an accessor uses. -/
def getterUses (t : Table) : List Use := accessorTypeUses runtime t ++ [.entity (.table t)]

/-- What a helper's class uses, in the order in which it is printed. -/
def uses : List Use :=
  .entity (.runtime runtime.openHelper) ::
    (h.tables.flatMap (accessorTypeUses runtime) ++ constructorUses runtime h ++
      onCreateUses runtime h ++ onUpgradeUses runtime h ++ clearTablesUses runtime h ++
      dropTablesUses runtime h ++ [.own "void"] ++ h.tables.flatMap (getterUses runtime))

/-! ### The references of the class -/

theorem references_forTables (method : String) (extra : List Expr)
    (hextra : Expr.referencesAll extra = []) (tables : List Table) :
    Stmt.referencesAll (forTables runtime method extra tables) =
      (forTablesUses runtime tables).map (referenceOf runtime outDir h) := by
  rw [Stmt.referencesAll_eq_flatMap, forTables, forTablesUses, List.flatMap_map, List.map_flatMap]
  refine List.flatMap_congr fun t _ => ?_
  show _ ++ (_ ++ (_ ++ Expr.referencesAll extra)) = _
  rw [hextra]
  rfl

theorem references_constructor :
    (constructor runtime h).references =
      (constructorUses runtime h).map (referenceOf runtime outDir h) := by
  unfold constructor constructorUses
  cases h.writesConfig <;> rfl

theorem references_onCreate :
    (onCreate runtime h).references =
      (onCreateUses runtime h).map (referenceOf runtime outDir h) := by
  have hcreate := references_forTables runtime outDir h "createTable" [] rfl h.tables
  simp only [onCreate, Member.references, Stmt.referencesAll, Stmt.references, hcreate,
    onCreateUses, List.map_append, List.append_assoc]
  rfl

theorem references_guarded (step : Upgrade.Step) :
    (guarded step).references = stepUses.map (referenceOf runtime outDir h) := by
  unfold guarded guard
  cases step.origin <;> rfl

theorem references_upgradeBody :
    Stmt.referencesAll (upgradeBody h) = (upgradeUses h).map (referenceOf runtime outDir h) := by
  unfold upgradeBody upgradeUses
  cases h.migration with
  | recreate => rfl
  | upgrade plan =>
    dsimp only
    split
    · rfl
    · have hsteps : Stmt.referencesAll (plan.steps.map guarded) =
          (plan.steps.flatMap fun _ => stepUses).map (referenceOf runtime outDir h) := by
        rw [Stmt.referencesAll_eq_flatMap, List.flatMap_map, List.map_flatMap]
        exact List.flatMap_congr fun step _ => references_guarded runtime outDir h step
      rw [Stmt.referencesAll, Stmt.referencesAll, hsteps]
      rfl

theorem references_onUpgrade :
    (onUpgrade runtime h).references =
      (onUpgradeUses runtime h).map (referenceOf runtime outDir h) := by
  simp only [onUpgrade, Member.references, references_upgradeBody runtime outDir, onUpgradeUses,
    List.map_append]
  rfl

theorem references_clearTables :
    (clearTables runtime h).references =
      (clearTablesUses runtime h).map (referenceOf runtime outDir h) := by
  have hclear := references_forTables runtime outDir h "clearTable" [] rfl h.tables
  simp only [clearTables, Member.references, Stmt.referencesAll_eq_flatMap] at hclear ⊢
  simp only [List.flatMap_cons, List.flatMap_append, Stmt.references, Stmt.referencesAll_eq_flatMap,
    hclear, clearTablesUses, List.map_append, List.append_assoc]
  rfl

theorem references_dropTables :
    (dropTables runtime h).flatMap (·.references) =
      (dropTablesUses runtime h).map (referenceOf runtime outDir h) := by
  unfold dropTables dropTablesUses
  cases h.migration with
  | upgrade plan => rfl
  | recreate =>
    have hdrop := references_forTables runtime outDir h "dropTable" [.true] rfl h.tables
    simp only [List.flatMap_cons, List.flatMap_nil, Member.references, Stmt.referencesAll,
      Stmt.references, hdrop, List.map_append, List.append_assoc]
    rfl

theorem references_close :
    (close h).references = [Use.own "void"].map (referenceOf runtime outDir h) := by
  have hassigns : Stmt.referencesAll (h.tables.map fun t =>
      .assign (.member .this (Naming.accessorField t.name)) .null) = [] := by
    rw [Stmt.referencesAll_eq_flatMap, List.flatMap_map]
    exact List.flatMap_eq_nil_iff.2 fun t _ => rfl
  rw [close, Member.references, Stmt.referencesAll, hassigns]
  rfl

/-- The references of a helper's class are what is printed for its uses, one after the other. -/
theorem references_helperModule :
    (helperModule runtime outDir h).exported.references =
      (uses runtime h).map (referenceOf runtime outDir h) := by
  have hfields : (h.tables.map (accessorField runtime)).flatMap (·.references) =
      (h.tables.flatMap (accessorTypeUses runtime)).map (referenceOf runtime outDir h) := by
    rw [List.flatMap_map, List.map_flatMap]
    rfl
  have hgetters : (h.tables.map (accessorGetter runtime)).flatMap (·.references) =
      (h.tables.flatMap (getterUses runtime)).map (referenceOf runtime outDir h) := by
    rw [List.flatMap_map, List.map_flatMap]
    rfl
  simp only [helperModule, ClassCode.references, members, List.flatMap_append, List.flatMap_cons,
    List.flatMap_nil, hfields, hgetters, references_constructor runtime outDir,
    references_onCreate runtime outDir, references_onUpgrade runtime outDir,
    references_clearTables runtime outDir, references_dropTables runtime outDir,
    references_close runtime outDir, uses, List.map_cons, List.map_append, List.append_assoc,
    List.append_nil]
  rfl

/-! ### Which uses there are -/

/-- A helper has upgrade routines to run. -/
def RunsRoutines : Prop := ∃ plan, h.migration = .upgrade plan ∧ plan.isEmpty = false

/-- What is used has a reason in the helper. -/
def HasReason : Use → Prop
  | .entity (.runtime name) => name ∈ usedNames runtime h
  | .entity (.table t) => t ∈ h.tables
  | .entity .owner => RunsRoutines h
  | .entity .config => h.writesConfig = true
  | .entity (.request _) => False
  | .idType t => t ∈ h.tables
  | .own name => name = h.className ∨ name ∈ localNames ∨ name ∈ globalNames

variable {runtime h}

theorem mem_usedNames_of_mem_tables {t : Table} (ht : t ∈ h.tables) :
    runtime.dao ∈ usedNames runtime h ∧ runtime.tableUtils ∈ usedNames runtime h := by
  have hne : ¬ h.tables.isEmpty = true := by
    rw [List.isEmpty_iff]
    exact List.ne_nil_of_mem ht
  simp [usedNames, tableRuntimeNames, hne]

theorem hasReason_accessorTypeUses {t : Table} (ht : t ∈ h.tables) :
    ∀ u ∈ accessorTypeUses runtime t, HasReason runtime h u := by
  have hdao : runtime.dao ∈ usedNames runtime h := (mem_usedNames_of_mem_tables ht).1
  simp [accessorTypeUses, HasReason, hdao, ht]

theorem hasReason_getterUses {t : Table} (ht : t ∈ h.tables) :
    ∀ u ∈ getterUses runtime t, HasReason runtime h u := by
  refine List.forall_mem_append.2 ⟨hasReason_accessorTypeUses ht, ?_⟩
  simp [HasReason, ht]

theorem hasReason_forTablesUses :
    ∀ u ∈ forTablesUses runtime h.tables, HasReason runtime h u := by
  refine List.forall_mem_flatMap.2 fun t ht => ?_
  have hutils : runtime.tableUtils ∈ usedNames runtime h := (mem_usedNames_of_mem_tables ht).2
  simp [HasReason, hutils, ht, localNames]

theorem hasReason_databaseUses : ∀ u ∈ databaseUses runtime, HasReason runtime h u := by
  simp [databaseUses, HasReason, usedNames, runtimeNames]

theorem hasReason_startUses : ∀ u ∈ startUses runtime h, HasReason runtime h u := by
  simp [startUses, HasReason, usedNames, runtimeNames]

theorem hasReason_failureUses : ∀ u ∈ failureUses runtime h, HasReason runtime h u := by
  simp [failureUses, HasReason, usedNames, runtimeNames, localNames]

theorem hasReason_constructorUses : ∀ u ∈ constructorUses runtime h, HasReason runtime h u := by
  unfold constructorUses
  split <;> simp_all [HasReason, usedNames, runtimeNames, localNames]

theorem hasReason_upgradeUses : ∀ u ∈ upgradeUses h, HasReason runtime h u := by
  have harguments : ∀ u ∈ argumentUses, HasReason runtime h u := by
    simp [argumentUses, HasReason, localNames]
  have hstep : ∀ u ∈ stepUses, HasReason runtime h u := by
    simp [stepUses, argumentUses, HasReason, localNames]
  unfold upgradeUses
  split
  · exact List.forall_mem_append.2 ⟨harguments, harguments⟩
  · rename_i plan hplan
    split
    · exact List.forall_mem_nil _
    · rename_i hempty
      have howner : RunsRoutines h := ⟨plan, hplan, eq_false_of_ne_true hempty⟩
      refine List.forall_mem_cons.2 ⟨howner, List.forall_mem_cons.2 ⟨?_, ?_⟩⟩
      · simp [HasReason, localNames]
      · exact List.forall_mem_flatMap.2 fun _ _ => hstep

theorem hasReason_own {name : String} (hname : name ∈ localNames ++ globalNames) :
    ∀ u ∈ [Use.own name], HasReason runtime h u := by
  intro u hu
  rw [List.mem_singleton.1 hu]
  exact .inr (List.mem_append.1 hname)

theorem hasReason_onCreateUses : ∀ u ∈ onCreateUses runtime h, HasReason runtime h u := by
  have hvoid : ∀ u ∈ [Use.own "void"], HasReason runtime h u := hasReason_own (by decide)
  have herror : ∀ u ∈ [Use.own "Error"] ++ [.own "e"], HasReason runtime h u :=
    List.forall_mem_append.2 ⟨hasReason_own (by decide), hasReason_own (by decide)⟩
  simp only [onCreateUses, List.forall_mem_append]
  exact ⟨⟨⟨⟨⟨hasReason_databaseUses, hvoid⟩, hasReason_startUses⟩, hasReason_forTablesUses⟩,
    hasReason_failureUses⟩, herror⟩

theorem hasReason_onUpgradeUses : ∀ u ∈ onUpgradeUses runtime h, HasReason runtime h u := by
  have hnumber : ∀ u ∈ [Use.own "number"], HasReason runtime h u := hasReason_own (by decide)
  have hvoid : ∀ u ∈ [Use.own "void"], HasReason runtime h u := hasReason_own (by decide)
  have htypes : ∀ u ∈ [Use.own "number"] ++ ([.own "number"] ++ [.own "void"]),
      HasReason runtime h u :=
    List.forall_mem_append.2 ⟨hnumber, List.forall_mem_append.2 ⟨hnumber, hvoid⟩⟩
  simp only [onUpgradeUses, List.forall_mem_append]
  exact ⟨⟨hasReason_databaseUses, htypes⟩, hasReason_upgradeUses⟩

theorem hasReason_clearTablesUses : ∀ u ∈ clearTablesUses runtime h, HasReason runtime h u := by
  simp only [clearTablesUses, List.forall_mem_append]
  exact ⟨⟨⟨⟨hasReason_own (by decide), hasReason_startUses⟩, hasReason_own (by decide)⟩,
    hasReason_forTablesUses⟩, hasReason_failureUses⟩

theorem hasReason_dropTablesUses : ∀ u ∈ dropTablesUses runtime h, HasReason runtime h u := by
  unfold dropTablesUses
  split
  · exact List.forall_mem_nil _
  · simp only [List.forall_mem_append]
    exact ⟨⟨⟨⟨hasReason_databaseUses, hasReason_own (by decide)⟩, hasReason_startUses⟩,
      hasReason_forTablesUses⟩, hasReason_failureUses⟩

/-- Nothing is used without a reason. -/
theorem hasReason_of_mem_uses : ∀ u ∈ uses runtime h, HasReason runtime h u := by
  have hopen : HasReason runtime h (.entity (.runtime runtime.openHelper)) := by
    simp [HasReason, usedNames, runtimeNames]
  have hfields : ∀ u ∈ h.tables.flatMap (accessorTypeUses runtime), HasReason runtime h u :=
    List.forall_mem_flatMap.2 fun t ht => hasReason_accessorTypeUses ht
  have hgetters : ∀ u ∈ h.tables.flatMap (getterUses runtime), HasReason runtime h u :=
    List.forall_mem_flatMap.2 fun t ht => hasReason_getterUses ht
  refine List.forall_mem_cons.2 ⟨hopen, ?_⟩
  simp only [List.forall_mem_append]
  exact ⟨⟨⟨⟨⟨⟨⟨hfields, hasReason_constructorUses⟩, hasReason_onCreateUses⟩,
    hasReason_onUpgradeUses⟩, hasReason_clearTablesUses⟩, hasReason_dropTablesUses⟩,
    hasReason_own (by decide)⟩, hgetters⟩

/-! ### What is used -/

/-- The accessor of a table uses its class and its id type. -/
theorem mem_uses_of_mem_accessorTypeUses {u : Use} {t : Table} (ht : t ∈ h.tables)
    (hu : u ∈ accessorTypeUses runtime t) : u ∈ uses runtime h := by
  have hfields := List.mem_flatMap.2 ⟨t, ht, hu⟩
  simp only [uses, List.mem_cons, List.mem_append]
  simp only [hfields, true_or, or_true]

theorem owner_mem_uses (hruns : RunsRoutines h) : .entity .owner ∈ uses runtime h := by
  obtain ⟨plan, hplan, hempty⟩ := hruns
  have hupgrade : .entity .owner ∈ upgradeUses h := by
    simp [upgradeUses, hplan, hempty]
  simp [uses, onUpgradeUses, hupgrade]

theorem config_mem_uses (hwrites : h.writesConfig = true) : .entity .config ∈ uses runtime h := by
  simp [uses, constructorUses, hwrites]

theorem runtime_mem_uses {name : String} (hname : name ∈ usedNames runtime h) :
    .entity (.runtime name) ∈ uses runtime h := by
  rcases List.mem_append.1 hname with hname | hname
  · simp only [runtimeNames, List.mem_cons, List.not_mem_nil, or_false] at hname
    rcases hname with rfl | rfl | rfl | rfl | rfl
    · simp [uses, constructorUses]
    · simp [uses, onCreateUses, databaseUses]
    · simp [uses, onCreateUses, databaseUses]
    · simp [uses]
    · simp [uses, onCreateUses, startUses]
  · -- the names that only tables need
    cases htables : h.tables with
    | nil =>
      rw [htables] at hname
      cases hname
    | cons t rest =>
      have htwo : tableRuntimeNames runtime h.tables = [runtime.dao, runtime.tableUtils] := by
        rw [htables]
        rfl
      simp only [htwo, List.mem_cons, List.not_mem_nil, or_false] at hname
      rcases hname with rfl | rfl
      · simp [uses, htables, accessorTypeUses]
      · simp [uses, htables, onCreateUses, forTablesUses]

end HelperModule

end Emit

end DaoGen
