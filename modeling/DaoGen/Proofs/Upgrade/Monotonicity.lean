import DaoGen.Proofs.Helper.Tables
import DaoGen.Proofs.Upgrade.ClosedForm
set_option autoImplicit false

/-!
# Runs that only lead upwards

A run ascends when no step that it performs lowers the version or sets it above the declared one
(`Plan.Ascends`); it then ends between its start and the declared version.  Validation compares no
version of a routine with another one, so a helper can be accepted whose runs do not ascend
(`dispatch_falls_and_overshoots`).  All runs from the declared version or below ascend exactly
when each step that applies there leads upwards, and not above the declared version unless
another step leads on before it is tried (`dispatch_ascends_iff`).
-/

namespace DaoGen.Upgrade

/-! ## The version along a list of steps -/

/-- A step that still applies after it was tried leads no further. -/
theorem target_le_final {steps : List Step} (hsorted : steps.Pairwise fun a b => a.le b = true)
    {start : Version} {step : Step} (hmem : step ∈ steps)
    (hfires : step.fires (runSteps steps start).2 = true) :
    step.target ≤ (runSteps steps start).2 := by
  obtain ⟨before, after, rfl⟩ := List.append_of_mem hmem
  have hlater : ∀ s ∈ after, step.target ≤ s.target :=
    fun s hs => Step.target_le_of_le (step_le hsorted hs)
  by_cases htried : step.fires (runSteps before start).2 = true
  · rw [runSteps_append, runSteps_cons, if_pos htried]
    rcases final_eq_or_mem after step.target with heq | ⟨s, hs, heq⟩
    · exact Nat.le_of_eq heq.symm
    · exact heq ▸ hlater s (mem_of_mem_fired hs)
  · rw [runSteps_append, runSteps_cons, if_neg htried] at hfires ⊢
    -- It did not apply when it was tried, so a later step has moved the version since.
    rcases final_eq_or_mem after (runSteps before start).2 with heq | ⟨s, hs, heq⟩
    · exact absurd (heq ▸ hfires) htried
    · exact heq ▸ hlater s (mem_of_mem_fired hs)

/-- A run that leaves its start does so by a step that applies there. -/
theorem exists_leaving {steps : List Step} {start : Version}
    (h : (runSteps steps start).2 ≠ start) :
    ∃ before step after, steps = before ++ step :: after ∧ (runSteps before start).2 = start ∧
      step.fires start = true ∧ step.target ≠ start := by
  induction steps with
  | nil => exact absurd rfl h
  | cons head rest ih =>
    by_cases hleaves : head.fires start = true ∧ head.target ≠ start
    · exact ⟨[], head, rest, rfl, rfl, hleaves⟩
    · have hstay : ∀ more, (runSteps (head :: more) start).2 = (runSteps more start).2 := by
        intro more
        rw [runSteps_cons]
        split
        · rename_i hfires
          have heq : head.target = start := Decidable.not_not.1 fun hne => hleaves ⟨hfires, hne⟩
          rw [heq]
        · rfl
      rw [hstay] at h
      obtain ⟨before, step, after, rfl, hbefore, hstep⟩ := ih h
      exact ⟨head :: before, step, after, rfl, (hstay before).trans hbefore, hstep⟩

namespace Plan

/-! ## Ascending runs -/

/-- The version at which a run tries the step at a position. -/
def versionAt (p : Plan) (start : Version) (i : Nat) : Version :=
  (runSteps (p.steps.take i) start).2

/-- No step that a run performs lowers the version or sets it above the declared one. -/
def Ascends (p : Plan) (start : Version) : Prop :=
  ∀ i step, p.steps[i]? = some step → p.firesAt start i = true →
    p.versionAt start i ≤ step.target ∧ step.target ≤ p.target

/-- A step applies at a version and leads on from it, though not above the declared one. -/
def LeadsOn (p : Plan) (version : Version) : Prop :=
  ∃ step ∈ p.steps, step.fires version = true ∧ version < step.target ∧ step.target ≤ p.target

/-- Every step that applies at the declared version or below leads upwards, and where it leads
above the declared version another step leads on. -/
def IsOrderly (p : Plan) : Prop :=
  ∀ step ∈ p.steps, ∀ version ≤ p.target, step.fires version = true →
    version ≤ step.target ∧ (step.target ≤ p.target ∨ p.LeadsOn version)

variable {p : Plan} {start : Version}

theorem firesAt_eq {i : Nat} {step : Step} (h : p.steps[i]? = some step) :
    p.firesAt start i = step.fires (p.versionAt start i) := by
  rw [firesAt, h, versionAt]

theorem versionAt_succ {i : Nat} {step : Step} (h : p.steps[i]? = some step) :
    p.versionAt start (i + 1) =
      if p.firesAt start i = true then step.target else p.versionAt start i := by
  rw [firesAt_eq h]
  unfold versionAt
  rw [List.take_add_one, h, Option.toList_some, runSteps_append, runSteps_cons]
  split
  · rfl
  · rfl

theorem versionAt_succ_of_none {i : Nat} (h : p.steps[i]? = none) :
    p.versionAt start (i + 1) = p.versionAt start i := by
  rw [versionAt, List.take_add_one, h, Option.toList_none, List.append_nil, versionAt]

theorem final_eq_versionAt (p : Plan) (start : Version) :
    (p.run start).final = p.versionAt start p.steps.length := by
  rw [versionAt, List.take_length]
  rfl

/-- An ascending run stays between its start and the declared version. -/
theorem Ascends.versionAt_bounds (h : p.Ascends start) (hstart : start ≤ p.target) (i : Nat) :
    start ≤ p.versionAt start i ∧ p.versionAt start i ≤ p.target := by
  induction i with
  | zero => exact ⟨Nat.le_refl _, hstart⟩
  | succ i ih =>
    cases hstep : p.steps[i]? with
    | none =>
      rw [versionAt_succ_of_none hstep]
      exact ih
    | some step =>
      rw [versionAt_succ hstep]
      split
      · rename_i hfires
        obtain ⟨hlow, hhigh⟩ := h i step hstep hfires
        exact ⟨Nat.le_trans ih.1 hlow, hhigh⟩
      · exact ih

/-! ## Orderly plans -/

section

variable (hsorted : p.steps.Pairwise fun a b => a.le b = true)

include hsorted

/-- A step of a plan with a smaller target than the one at a position has been tried before. -/
theorem mem_take_of_target_lt {i : Nat} {step other : Step} (hstep : p.steps[i]? = some step)
    (hother : other ∈ p.steps) (hlt : other.target < step.target) : other ∈ p.steps.take i := by
  have hsplit := split_of_getElem? hstep
  rw [hsplit] at hother hsorted
  rcases List.mem_append.1 hother with hmem | hmem
  · exact hmem
  · rcases List.mem_cons.1 hmem with rfl | hmem
    · exact absurd hlt (Nat.lt_irrefl _)
    · have hle := Step.target_le_of_le (step_le hsorted hmem)
      exact absurd hlt (Nat.not_lt_of_le hle)

/-- What an orderly plan performs at the declared version or below ends there again: a step
that leads on would have been tried first. -/
theorem IsOrderly.target_le (h : p.IsOrderly) {i : Nat} {step : Step}
    (hstep : p.steps[i]? = some step) (hversion : p.versionAt start i ≤ p.target)
    (hfires : p.firesAt start i = true) :
    p.versionAt start i ≤ step.target ∧ step.target ≤ p.target := by
  rw [firesAt_eq hstep] at hfires
  obtain ⟨hlow, hhigh⟩ := h step (List.mem_of_getElem? hstep) _ hversion hfires
  refine ⟨hlow, ?_⟩
  rcases hhigh with hhigh | ⟨other, hother, hotherFires, hon, hbelow⟩
  · exact hhigh
  · by_contra habove
    have hlt : other.target < step.target := Nat.lt_of_le_of_lt hbelow (Nat.lt_of_not_le habove)
    have htried := mem_take_of_target_lt hsorted hstep hother hlt
    have hle := target_le_final (hsorted.sublist (List.take_sublist i p.steps)) htried hotherFires
    exact absurd hon (Nat.not_lt_of_le hle)

theorem IsOrderly.versionAt_le (h : p.IsOrderly) (hstart : start ≤ p.target) (i : Nat) :
    p.versionAt start i ≤ p.target := by
  induction i with
  | zero => exact hstart
  | succ i ih =>
    cases hstep : p.steps[i]? with
    | none =>
      rw [versionAt_succ_of_none hstep]
      exact ih
    | some step =>
      rw [versionAt_succ hstep]
      split
      · rename_i hfires
        exact (h.target_le hsorted hstep ih hfires).2
      · exact ih

theorem IsOrderly.ascends (h : p.IsOrderly) (hstart : start ≤ p.target) : p.Ascends start :=
  fun i _ hstep hfires => h.target_le hsorted hstep (h.versionAt_le hsorted hstart i) hfires

/-- A plan whose runs ascend is orderly: a run from a version where a step applies comes to
that step, or has left the version by another one. -/
theorem isOrderly_of_ascends (h : ∀ start ≤ p.target, p.Ascends start) : p.IsOrderly := by
  intro step hmem version hversion hfires
  obtain ⟨i, hstep⟩ := List.mem_iff_getElem?.1 hmem
  by_cases hstay : p.versionAt version i = version
  · have hat : p.firesAt version i = true := by
      rw [firesAt_eq hstep, hstay]
      exact hfires
    obtain ⟨hlow, hhigh⟩ := h version hversion i step hstep hat
    exact ⟨hstay ▸ hlow, .inl hhigh⟩
  · obtain ⟨before, other, after, hsplit, hbefore, hother, hne⟩ := exists_leaving hstay
    have hget : p.steps[before.length]? = some other := by
      rw [split_of_getElem? hstep, hsplit]
      simp
    have hat : p.versionAt version before.length = version := by
      rw [versionAt, split_of_getElem? hstep, hsplit]
      simpa using hbefore
    have hfiresAt : p.firesAt version before.length = true := by
      rw [firesAt_eq hget, hat]
      exact hother
    obtain ⟨hlow, hhigh⟩ := h version hversion _ other hget hfiresAt
    rw [hat] at hlow
    have hon : version < other.target := Nat.lt_of_le_of_ne hlow (Ne.symm hne)
    have hbeforeStep : other.le step = true := by
      rw [split_of_getElem? hstep] at hsorted
      exact le_step hsorted (hsplit ▸ List.mem_append_right _ List.mem_cons_self)
    refine ⟨Nat.le_trans hlow (Step.target_le_of_le hbeforeStep), .inr ?_⟩
    exact ⟨other, List.mem_of_getElem? hget, hother, hon, hhigh⟩

end

end Plan

/-! ## Plans of helpers -/

open DaoGen.HelperDeclaration

/-- The plan of a helper is made of the steps of its class's routines, for its own version. -/
theorem exists_plan_of_mem_helpers {p : Program} {registry : Schema.Registry}
    {runtime : RuntimeNames} {h : Helper}
    (hmem : h ∈ (Validation.ofProgram p registry runtime).helpers) {plan : Plan}
    (hplan : h.migration = .upgrade plan) :
    plan = .ofSteps h.version
      (values ((Validation.routinesOf p h.owner).map (·.accept runtime))) := by
  obtain ⟨d, -, hresult⟩ := Validation.exists_declaration_of_mem_helpers hmem
  obtain ⟨name, version, -, -, rfl⟩ := exists_of_result_accept hresult
  dsimp only [made, Migration.ofDeclared] at hplan
  split at hplan
  · cases hplan
  · exact (Migration.upgrade.inj hplan).symm

/-- The runs of a helper's plan from the declared version or below all ascend exactly when the
plan is orderly, and then they end between their start and the declared version.  The plan is
orderly when every routine leads upwards and none above the declared version. -/
theorem dispatch_ascends_iff {p : Program} {registry : Schema.Registry} {runtime : RuntimeNames}
    {h : Helper} (hmem : h ∈ (Validation.ofProgram p registry runtime).helpers) {plan : Plan}
    (hplan : h.migration = .upgrade plan) :
    plan.target = h.version ∧
    ((∀ start ≤ h.version, plan.Ascends start) ↔ plan.IsOrderly) ∧
    (∀ start ≤ h.version, plan.Ascends start →
      start ≤ (plan.run start).final ∧ (plan.run start).final ≤ h.version) ∧
    ((∀ r ∈ Validation.routinesOf p h.owner, ∀ step, r.accept runtime = .ok step →
        step.target ≤ h.version ∧
          ∀ origin, step.origin = .exact origin → origin ≤ step.target) →
      plan.IsOrderly) := by
  obtain rfl := exists_plan_of_mem_helpers hmem hplan
  have hsorted : (Plan.ofSteps h.version (values
      ((Validation.routinesOf p h.owner).map (·.accept runtime)))).steps.Pairwise
        fun a b => a.le b = true := Plan.pairwise_ofSteps
  refine ⟨rfl, ⟨Plan.isOrderly_of_ascends hsorted, fun horderly _ => horderly.ascends hsorted⟩,
    ?_, ?_⟩
  · intro start hstart hascends
    rw [Plan.final_eq_versionAt]
    exact hascends.versionAt_bounds hstart _
  · intro hroutines step hstep version _ hfires
    obtain ⟨r, hr, haccept⟩ := List.mem_map.1 (mem_values.1 (Plan.mem_ofSteps.1 hstep))
    obtain ⟨hbound, hup⟩ := hroutines r hr step haccept
    refine ⟨?_, .inl hbound⟩
    cases horigin : step.origin with
    | unset => exact (Step.fires_of_unset horigin).1 hfires
    | exact origin =>
      rw [(Step.fires_of_exact horigin).1 hfires]
      exact hup origin horigin

/-! ## Two routines of a helper -/

/-- A source file that declares a helper of version 3 with a routine for each of some options. -/
def sourceWithRoutines (routines : List (String × List (String × Nat))) : Source.SourceFile :=
  let named (type : String) : Source.Annotation := ⟨type, .reference type []⟩
  let parameter (name type : String) : Source.Parameter :=
    ⟨name, some (named type), false, none, default⟩
  let number (n : Nat) : Source.Expr := .number default (.ofNat n)
  let decorated (decorator : String) (options : List (String × Source.Expr)) : Source.Decorator :=
    ⟨decorator, none, [.object default options], default⟩
  let method (routine : String × List (String × Nat)) : Source.Method :=
    { name := routine.1, kind := .method
      parameters :=
        [parameter "database" "SQLiteDatabase", parameter "connectionSource" "ConnectionSource"]
      decorators := [decorated "OnUpgrade" (routine.2.map fun o => (o.1, number o.2))]
      visibility := .unrestricted, isStatic := false, isAbstract := false, isAsync := false
      returns := none, hasPrivateName := false, hasKeyName := false, hasBody := true
      span := default }
  { path := ⟨"/src/notes.ts"⟩, text := ""
    imports :=
      [⟨[⟨"SQLiteDatabase", none⟩, ⟨"ConnectionSource", none⟩], "@ormhelper/runtime", default⟩]
    classes :=
      [⟨"Notes", none,
        [decorated "Helper" [("name", .string default "notes"), ("version", number 3)]], [],
        routines.map method, false, true, default⟩]
    typeNames := [] }

/-- A routine may lead above the declared version where another one leads on before. -/
theorem dispatch_ascends_past_overtaken_step :
    let p := Program.ofSources ⟨"/src"⟩
      [sourceWithRoutines
        [("far", [("fromVersion", 1), ("toVersion", 5)]), ("toThree", [("toVersion", 3)])]]
    ∃ h ∈ (Validation.ofProgram p (Schema.Registry.ofProgram p) {}).helpers, ∃ plan,
      h.migration = .upgrade plan ∧ (∃ step ∈ plan.steps, h.version < step.target) ∧
      ∀ start ≤ h.version, plan.Ascends start := by
  intro p
  have hplan : ∃ h ∈ (Validation.ofProgram p (Schema.Registry.ofProgram p) {}).helpers,
      h.version = 3 ∧ h.migration = .upgrade
        ⟨3, [⟨⟨.unset, 3⟩, "toThree"⟩, ⟨⟨.exact 1, 5⟩, "far"⟩]⟩ := by
    decide +kernel
  obtain ⟨h, hmem, hversion, hplan⟩ := hplan
  refine ⟨h, hmem, _, hplan, ?_, ?_⟩
  · rw [hversion]
    decide
  · apply (dispatch_ascends_iff hmem hplan).2.1.2
    intro step hstep version hle hfires
    rcases List.mem_pair.1 hstep with rfl | rfl
    · exact ⟨(Step.fires_of_unset rfl).1 hfires, .inl (Nat.le_refl 3)⟩
    · obtain rfl := (Step.fires_of_exact rfl).1 hfires
      exact ⟨by decide, .inr ⟨_, List.mem_cons_self, by decide, by decide, by decide⟩⟩

/-- A helper of version 3 is accepted with a routine that leads from 2 back to 1 and one that
leads from 3 to 5, and its plan performs them. -/
theorem dispatch_falls_and_overshoots :
    let p := Program.ofSources ⟨"/src"⟩
      [sourceWithRoutines
        [("back", [("fromVersion", 2), ("toVersion", 1)]),
          ("past", [("fromVersion", 3), ("toVersion", 5)])]]
    (Validation.ofProgram p (Schema.Registry.ofProgram p) {}).diagnostics.length = 0 ∧
    ∃ h ∈ (Validation.ofProgram p (Schema.Registry.ofProgram p) {}).helpers,
      h.version = 3 ∧ ∃ plan, h.migration = .upgrade plan ∧
        plan.run 2 = ⟨2, [⟨⟨.exact 2, 1⟩, "back"⟩], 1⟩ ∧
        plan.run 3 = ⟨3, [⟨⟨.exact 3, 5⟩, "past"⟩], 5⟩ ∧
        ¬ plan.Ascends 2 ∧ ¬ plan.Ascends 3 := by
  intro p
  refine ⟨by decide +kernel, ?_⟩
  have hplan : ∃ h ∈ (Validation.ofProgram p (Schema.Registry.ofProgram p) {}).helpers,
      h.version = 3 ∧ h.migration = .upgrade
        ⟨3, [⟨⟨.exact 2, 1⟩, "back"⟩, ⟨⟨.exact 3, 5⟩, "past"⟩]⟩ := by
    decide +kernel
  obtain ⟨h, hmem, hversion, hplan⟩ := hplan
  refine ⟨h, hmem, hversion, _, hplan, by decide, by decide, ?_, ?_⟩
  · intro hascends
    exact absurd (hascends 0 _ rfl (by decide)).1 (by decide)
  · intro hascends
    exact absurd (hascends 1 _ rfl (by decide)).2 (by decide)

end DaoGen.Upgrade
