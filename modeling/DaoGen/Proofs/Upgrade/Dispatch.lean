import DaoGen.Emit.HelperModule
import DaoGen.Proofs.Emit.Execution
set_option autoImplicit false

/-!
# The emitted upgrade does what its plan says

The body of `onUpgrade` opens with the object that has the routines and the variable
`version`; then follows one guard per step of the plan.  Running the text of the guards
calls the routines that the run of the plan performs, in its order, and leaves `version`
where the run ends (`onUpgrade_performs_plan`).
-/

namespace DaoGen.Upgrade

open DaoGen.Emit DaoGen.Emit.HelperModule

/-! ## Guards as statements -/

theorem isVariable_version : IsVariable "version" := ⟨by decide, by decide⟩

theorem isVariable_upgradeHelper : IsVariable "upgradeHelper" := ⟨by decide, by decide⟩

theorem atomic_databaseArguments : ∀ a ∈ databaseArguments, a.Atomic := by
  intro a ha
  simp only [databaseArguments, List.mem_cons, List.not_mem_nil, or_false] at ha
  rcases ha with rfl | rfl
  · exact .name ⟨by decide, by decide⟩
  · exact .name ⟨by decide, by decide⟩

/-- A guard is read back when the routine of its step is a name. -/
theorem readable_guarded {step : Step} (h : IsName step.routine) : (guarded step).Readable := by
  have hbody : ∀ stmt ∈ [invoke (.name "upgradeHelper") step.routine databaseArguments,
      .assign (.name "version") (.number step.target)], stmt.Readable := by
    intro stmt hstmt
    simp only [List.mem_cons, List.not_mem_nil, or_false] at hstmt
    rcases hstmt with rfl | rfl
    · exact .invoke isVariable_upgradeHelper h atomic_databaseArguments
    · exact .assign isVariable_version (.number _)
  unfold guarded HelperModule.guard
  cases step.origin with
  | unset => exact .ifThen (.name isVariable_version) (.number _) hbody
  | exact origin => exact .ifThen (.name isVariable_version) (.number _) hbody

/-! ## Running guards -/

/-- The objects that an upgrade works with. -/
structure Objects where
  /-- the object with the routines -/
  owner : Nat
  database : Nat
  connectionSource : Nat

/-- The variables of an upgrade at a version. -/
def Objects.store (o : Objects) (version : Version) : Store := fun name =>
  if name = "version" then some (.number version)
  else if name = "upgradeHelper" then some (.object o.owner)
  else if name = "database" then some (.object o.database)
  else if name = "connectionSource" then some (.object o.connectionSource)
  else none

/-- The call of a step's routine. -/
def Objects.callOf (o : Objects) (step : Step) : Call :=
  ⟨o.owner, step.routine, [.object o.database, .object o.connectionSource]⟩

theorem assign_version (o : Objects) (version target : Version) (calls : List Call) :
    State.assign ⟨o.store version, calls⟩ "version" (.number target) =
      some ⟨o.store target, calls⟩ := by
  have hstore : (fun other => if other = "version" then some (Value.number target)
      else o.store version other) = o.store target := by
    funext other
    unfold Objects.store
    split <;> rfl
  simp [State.assign, hstore]
  simp [Objects.store]

theorem holds_guard (o : Objects) (version : Version) (step : Step) :
    (HelperModule.guard step).holds (o.store version) = some (step.fires version) := by
  unfold HelperModule.guard Transition.fires
  cases step.origin with
  | unset => simp [Expr.holds, Expr.evaluate, Objects.store]
  | exact origin => simp [Expr.holds, Expr.evaluate, Objects.store]

/-- A guard does one step of a run. -/
theorem run_guarded (o : Objects) (version : Version) (calls : List Call) (step : Step) :
    (guarded step).run ⟨o.store version, calls⟩ =
      if step.fires version then some ⟨o.store step.target, calls ++ [o.callOf step]⟩
      else some ⟨o.store version, calls⟩ := by
  have hcall : Stmt.run ⟨o.store version, calls⟩
      (invoke (.name "upgradeHelper") step.routine databaseArguments) =
        some ⟨o.store version, calls ++ [o.callOf step]⟩ := by
    simp [invoke, Stmt.run, Expr.evaluate, databaseArguments, Objects.store, State.call,
      Objects.callOf]
  have hassign : Stmt.run ⟨o.store version, calls ++ [o.callOf step]⟩
      (.assign (.name "version") (.number step.target)) =
        some ⟨o.store step.target, calls ++ [o.callOf step]⟩ := by
    simp [Stmt.run, Expr.evaluate, assign_version]
  rw [guarded, Stmt.run, holds_guard]
  cases step.fires version with
  | true => simp [Stmt.runAll, hcall, hassign]
  | false => simp

/-- The guards of some steps do what the run through these steps does. -/
theorem runAll_guarded (o : Objects) (steps : List Step) (version : Version) (calls : List Call) :
    Stmt.runAll ⟨o.store version, calls⟩ (steps.map guarded) =
      some ⟨o.store (runSteps steps version).2,
        calls ++ (runSteps steps version).1.map o.callOf⟩ := by
  induction steps generalizing version calls with
  | nil => simp [Stmt.runAll]
  | cons step rest ih =>
    rw [List.map_cons, Stmt.runAll, run_guarded, runSteps_cons]
    cases hfires : step.fires version with
    | true =>
      simp [ih]
    | false =>
      simp [ih]

/-! ## The text of the upgrade -/

theorem exists_renderAll_eq {member : Member} {members : List Member} (h : member ∈ members) :
    ∃ before after, Member.renderAll members = before ++ member.render ++ after := by
  induction members with
  | nil => cases h
  | cons first rest ih =>
    have hrest : ∃ after, Member.renderAll (first :: rest) = first.render ++ after := by
      cases rest with
      | nil => exact ⟨"", by simp [Member.renderAll]⟩
      | cons next rest =>
        rw [Member.renderAll, String.append_assoc]
        exact ⟨_, rfl⟩
    rcases List.mem_cons.1 h with rfl | hmem
    · obtain ⟨after, hafter⟩ := hrest
      exact ⟨"", after, by rw [hafter, String.empty_append]⟩
    · obtain ⟨before, after, hsplit⟩ := ih hmem
      cases rest with
      | nil => cases hmem
      | cons next rest =>
        rw [Member.renderAll, hsplit]
        refine ⟨first.render ++ (if first.isField && next.isField then "" else "\n") ++ before,
          after, ?_⟩
        simp [String.append_assoc]

/-- The line that the method opens with. -/
def upgradeSignature (runtime : RuntimeNames) : String :=
  line 1 ("override onUpgrade(database: " ++ runtime.database ++ ", connectionSource: " ++
    runtime.connectionSource ++ ", oldVersion: number, newVersion: number): void \x7b")

/-- The lines in front of the guards: none when there are no guards. -/
def upgradeOpening (h : Helper) (plan : Plan) : String :=
  if plan.isEmpty then ""
  else "    const upgradeHelper = new " ++ h.ownerName ++ "();\n    let version = oldVersion;\n"

/-- The lines of the guards. -/
def guardText (plan : Plan) : String := Stmt.renderAll 2 (plan.steps.map guarded)

theorem renderParameters_onUpgrade (runtime : RuntimeNames) :
    renderParameters (databaseParameters runtime ++
        [⟨"oldVersion", .name "number"⟩, ⟨"newVersion", .name "number"⟩]) =
      "database: " ++ runtime.database ++ ", " ++
        ("connectionSource: " ++ runtime.connectionSource) ++ ", " ++
        "oldVersion: number" ++ ", " ++ "newVersion: number" := by
  simp only [renderParameters, databaseParameters, List.cons_append, List.nil_append,
    List.map_cons, List.map_nil, TypeExpr.render]
  rfl

theorem render_onUpgrade (runtime : RuntimeNames) {h : Helper} {plan : Plan}
    (hplan : h.migration = .upgrade plan) :
    (onUpgrade runtime h).render =
      upgradeSignature runtime ++ upgradeOpening h plan ++ guardText plan ++ "  \x7d\n" := by
  have hbody : Stmt.renderAll 2 (upgradeBody h) = upgradeOpening h plan ++ guardText plan := by
    simp only [upgradeBody, hplan, upgradeOpening, guardText]
    cases hempty : plan.isEmpty with
    | true =>
      have hsteps : plan.steps = [] := List.isEmpty_iff.1 hempty
      simp [Stmt.renderAll, hsteps]
    | false =>
      refine String.toList_inj.1 ?_
      simp [Stmt.renderAll, Stmt.render, Expr.render, Expr.renderAll, line, indent]
  have hsignature : line 1 (String.join (["override"].map (· ++ " ")) ++ "onUpgrade" ++ "(" ++
      renderParameters (databaseParameters runtime ++
        [⟨"oldVersion", .name "number"⟩, ⟨"newVersion", .name "number"⟩]) ++ "): " ++
      TypeExpr.render (.name "void") ++ " \x7b") = upgradeSignature runtime := by
    have hjoin : String.join (["override"].map (· ++ " ")) = "override " := by decide
    have hopen : "override onUpgrade(database: " =
        "override " ++ "onUpgrade" ++ "(" ++ "database: " := by decide
    have hsource : ", connectionSource: " = ", " ++ "connectionSource: " := by decide
    have hend : ", oldVersion: number, newVersion: number): void \x7b" =
        ", " ++ "oldVersion: number" ++ ", " ++ "newVersion: number" ++ "): " ++ "void" ++
          " \x7b" := by decide
    rw [hjoin, renderParameters_onUpgrade, upgradeSignature, hopen, hsource, hend, TypeExpr.render]
    simp only [String.append_assoc]
  have hclose : line 1 "\x7d" = "  \x7d\n" := by
    decide
  rw [onUpgrade, Member.render, hbody, hsignature, hclose, ← String.append_assoc]

/-- A helper's module has the method, with the guards of its plan as they are run here. -/
theorem exists_render_helperModule (runtime : RuntimeNames) (outDir : Path) {h : Helper}
    {plan : Plan} (hplan : h.migration = .upgrade plan) :
    ∃ before after, (helperModule runtime outDir h).render =
      before ++ (upgradeSignature runtime ++ upgradeOpening h plan ++ guardText plan ++
        "  \x7d\n") ++ after := by
  have hmem : onUpgrade runtime h ∈ members runtime h := by
    simp [members]
  obtain ⟨before, after, hsplit⟩ := exists_renderAll_eq hmem
  rw [render_onUpgrade runtime hplan] at hsplit
  refine ⟨ModuleCode.header h.ownerName ++ ImportBlock.render (imports runtime outDir h) ++ "\n" ++
    line 0 ("export class " ++ h.className ++ " extends " ++ runtime.openHelper ++ " \x7b") ++
    before, after ++ line 0 "\x7d", ?_⟩
  simp [helperModule, ModuleCode.render, ClassCode.render, hsplit, String.append_assoc]

/-- Running the guards that the module of a helper has in `onUpgrade`, from any version,
calls the routines that the run of the plan performs and ends at the version where the
run ends.  Without steps the body is empty. -/
theorem onUpgrade_performs_plan (runtime : RuntimeNames) (outDir : Path) {h : Helper} {plan : Plan}
    (hplan : h.migration = .upgrade plan) (hnames : ∀ step ∈ plan.steps, IsName step.routine) :
    (∃ before after, (helperModule runtime outDir h).render =
      before ++ (upgradeSignature runtime ++ upgradeOpening h plan ++ guardText plan ++
        "  \x7d\n") ++ after) ∧
    (plan.steps = [] → upgradeOpening h plan ++ guardText plan = "") ∧
    ∀ (o : Objects) (start : Version),
      execute (guardText plan) ⟨o.store start, []⟩ =
        some ⟨o.store (plan.run start).final, (plan.run start).fired.map o.callOf⟩ := by
  refine ⟨exists_render_helperModule runtime outDir hplan, ?_, ?_⟩
  · intro hsteps
    simp [upgradeOpening, guardText, Plan.isEmpty, hsteps, Stmt.renderAll]
  · intro o start
    have hreadable : ∀ stmt ∈ plan.steps.map guarded, stmt.Readable := by
      intro stmt hstmt
      obtain ⟨step, hstep, rfl⟩ := List.mem_map.1 hstmt
      exact readable_guarded (hnames step hstep)
    rw [guardText, execute_renderAll hreadable, runAll_guarded]
    rfl

/-- From version 2 the guards of an open step and of the step after it both run. -/
theorem onUpgrade_performs_two_steps :
    let plan := Plan.ofSteps 5 [⟨⟨.exact 3, 5⟩, "toFive"⟩, ⟨⟨.unset, 3⟩, "toThree"⟩]
    let h : Helper :=
      ⟨"notes", 5, [], false, false, .upgrade plan, 0, "Owner", .package "owner", default⟩
    h.migration = .upgrade plan ∧ (∀ step ∈ plan.steps, IsName step.routine) ∧
      execute (guardText plan) ⟨Objects.store ⟨0, 1, 2⟩ 2, []⟩ =
        some ⟨Objects.store ⟨0, 1, 2⟩ 5,
          [⟨0, "toThree", [.object 1, .object 2]⟩, ⟨0, "toFive", [.object 1, .object 2]⟩]⟩ := by
  intro plan h
  have hnames : ∀ step ∈ plan.steps, IsName step.routine := by decide
  have hrun := (onUpgrade_performs_plan {} ⟨"out"⟩ (h := h) rfl hnames).2.2 ⟨0, 1, 2⟩ 2
  exact ⟨rfl, hnames, hrun⟩

end DaoGen.Upgrade
