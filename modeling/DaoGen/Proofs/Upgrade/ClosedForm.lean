import DaoGen.Proofs.Upgrade.Order
set_option autoImplicit false

/-!
# Which steps of a plan are performed

A run tries the steps of a plan one after the other and carries a version along.  When
every exact origin lies below its target the version never falls, and this decides the
fate of each step from the plan and the start alone:

* a step with an open origin is performed when the start does not lie above its target;
* a step with an exact origin is performed when its origin is the start or the target
  of a performed step, no open step leads past its origin before it is tried, and no
  earlier step has the same origin;
* the run ends at the greatest of the start and the targets of the performed steps.
-/

namespace DaoGen.Upgrade

/-! ## The version along a run -/

/-- Every exact origin lies below its target. -/
def Forward (steps : List Step) : Prop :=
  ∀ step ∈ steps, ∀ origin, step.origin = .exact origin → origin < step.target

theorem Forward.mono {steps others : List Step} (h : Forward steps)
    (hsub : ∀ step ∈ others, step ∈ steps) : Forward others :=
  fun step hstep => h step (hsub step hstep)

theorem Step.fires_of_unset {step : Step} {version : Version} (h : step.origin = .unset) :
    step.fires version = true ↔ version ≤ step.target := by
  simp [Transition.fires, h]

theorem Step.fires_of_exact {step : Step} {version origin : Version}
    (h : step.origin = .exact origin) : step.fires version = true ↔ version = origin := by
  simp [Transition.fires, h]

/-- A step that is performed leads upwards. -/
theorem Step.le_target_of_fires {step : Step} {version : Version} (hforward : Forward [step])
    (h : step.fires version = true) : version ≤ step.target := by
  cases ho : step.origin with
  | unset => exact (Step.fires_of_unset ho).1 h
  | exact origin =>
    have hlt := hforward step (by simp) origin ho
    have heq := (Step.fires_of_exact ho).1 h
    exact heq ▸ Nat.le_of_lt hlt

theorem runSteps_append (before after : List Step) (version : Version) :
    runSteps (before ++ after) version =
      ((runSteps before version).1 ++ (runSteps after (runSteps before version).2).1,
        (runSteps after (runSteps before version).2).2) := by
  induction before generalizing version with
  | nil => simp
  | cons step rest ih =>
    rw [List.cons_append, runSteps_cons, runSteps_cons]
    split
    · rw [ih]
      simp
    · exact ih version

theorem mem_of_mem_fired {steps : List Step} {version : Version} {step : Step}
    (h : step ∈ (runSteps steps version).1) : step ∈ steps := by
  induction steps generalizing version with
  | nil => simp at h
  | cons head rest ih =>
    rw [runSteps_cons] at h
    split at h
    · rcases List.mem_cons.1 h with rfl | h
      · exact List.mem_cons_self
      · exact List.mem_cons_of_mem _ (ih h)
    · exact List.mem_cons_of_mem _ (ih h)

/-- A performed step was tried at some point of the run and its guard held there. -/
theorem exists_split_of_mem_fired {steps : List Step} {version : Version} {step : Step}
    (h : step ∈ (runSteps steps version).1) :
    ∃ before after, steps = before ++ step :: after ∧
      step.fires (runSteps before version).2 = true := by
  induction steps generalizing version with
  | nil => simp at h
  | cons head rest ih =>
    rw [runSteps_cons] at h
    split at h
    · rename_i hfires
      rcases List.mem_cons.1 h with rfl | h
      · exact ⟨[], rest, rfl, hfires⟩
      · obtain ⟨before, after, rfl, hstep⟩ := ih h
        refine ⟨head :: before, after, rfl, ?_⟩
        rw [runSteps_cons, if_pos hfires]
        exact hstep
    · rename_i hfires
      obtain ⟨before, after, rfl, hstep⟩ := ih h
      refine ⟨head :: before, after, rfl, ?_⟩
      rw [runSteps_cons, if_neg hfires]
      exact hstep

/-- The version never falls. -/
theorem le_final {steps : List Step} (hforward : Forward steps) (version : Version) :
    version ≤ (runSteps steps version).2 := by
  induction steps generalizing version with
  | nil => exact Nat.le_refl _
  | cons step rest ih =>
    have hrest : Forward rest := hforward.mono fun s hs => List.mem_cons_of_mem _ hs
    rw [runSteps_cons]
    split
    · rename_i hfires
      have hstep : version ≤ step.target :=
        Step.le_target_of_fires (hforward.mono (by simp)) hfires
      exact Nat.le_trans hstep (ih hrest _)
    · exact ih hrest version

/-- The version is the start or the target of a performed step. -/
theorem final_eq_or_mem (steps : List Step) (version : Version) :
    (runSteps steps version).2 = version ∨
      ∃ step ∈ (runSteps steps version).1, step.target = (runSteps steps version).2 := by
  induction steps generalizing version with
  | nil => exact .inl rfl
  | cons head rest ih =>
    rw [runSteps_cons]
    split
    · right
      rcases ih head.target with heq | ⟨step, hstep, heq⟩
      · exact ⟨head, List.mem_cons_self, heq.symm⟩
      · exact ⟨step, List.mem_cons_of_mem _ hstep, heq⟩
    · exact ih version

/-- A version stays where it is when no step leads away from it. -/
theorem final_eq_self {steps : List Step} {version : Version}
    (h : ∀ step ∈ steps, step.fires version = true → step.target = version) :
    (runSteps steps version).2 = version := by
  induction steps with
  | nil => rfl
  | cons step rest ih =>
    have hrest := ih fun s hs => h s (List.mem_cons_of_mem _ hs)
    rw [runSteps_cons]
    split
    · rename_i hfires
      rw [h step List.mem_cons_self hfires]
      exact hrest
    · exact hrest

/-- The version ends at the greatest of the start and the targets it passes. -/
theorem final_eq_foldl_max {steps : List Step} (hforward : Forward steps) (version : Version) :
    (runSteps steps version).2 =
      ((runSteps steps version).1.map (·.target)).foldl max version := by
  induction steps generalizing version with
  | nil => rfl
  | cons step rest ih =>
    have hrest : Forward rest := hforward.mono fun s hs => List.mem_cons_of_mem _ hs
    rw [runSteps_cons]
    split
    · rename_i hfires
      have hstep : version ≤ step.target :=
        Step.le_target_of_fires (hforward.mono (by simp)) hfires
      simp only [List.map_cons, List.foldl_cons, Nat.max_eq_right hstep]
      exact ih hrest _
    · exact ih hrest version

/-! ## One position of a plan

From here on the steps of a plan are cut at one position: `before` has been tried when
`step` is. -/

section Position

variable {before after : List Step} {step : Step} {start : Version}

/-- A step that is performed leaves the version at its target or above. -/
theorem target_le_final_of_fires (hforward : Forward after)
    (h : step.fires (runSteps before start).2 = true) :
    step.target ≤ (runSteps (before ++ step :: after) start).2 := by
  rw [runSteps_append, runSteps_cons, if_pos h]
  exact le_final hforward step.target

/-- A step with an open origin is performed when the start does not lie above its target. -/
theorem fires_unset_iff (hforward : Forward before) (hle : ∀ s ∈ before, s.le step = true)
    (ho : step.origin = .unset) :
    step.fires (runSteps before start).2 = true ↔ start ≤ step.target := by
  rw [Step.fires_of_unset ho]
  constructor
  · exact Nat.le_trans (le_final hforward start)
  · intro hstart
    rcases final_eq_or_mem before start with heq | ⟨s, hs, heq⟩
    · rw [heq]
      exact hstart
    · rw [← heq]
      exact Step.target_le_of_le (hle s (mem_of_mem_fired hs))

variable (hforward : Forward (before ++ step :: after))
  (hsorted : (before ++ step :: after).Pairwise fun a b => a.le b = true)

include hsorted in
theorem le_step {s : Step} (hs : s ∈ before) : s.le step = true :=
  (List.pairwise_append.1 hsorted).2.2 s hs step List.mem_cons_self

include hsorted in
theorem step_le {s : Step} (hs : s ∈ after) : step.le s = true :=
  (List.pairwise_cons.1 (List.pairwise_append.1 hsorted).2.1).1 s hs

include hforward hsorted

/-- The version is at an exact origin only if no open step leads past it. -/
theorem not_passed_of_final_eq {origin : Version} (ho : step.origin = .exact origin)
    (h : (runSteps before start).2 = origin) {other : Step}
    (hother : other ∈ before ++ step :: after) (hunset : other.origin = .unset) :
    ¬ (origin < other.target ∧ other.target ≤ step.target) := by
  rintro ⟨hlow, hhigh⟩
  rcases List.mem_append.1 hother with hmem | hmem
  · -- The open step is tried first, fires and carries the version past the origin.
    obtain ⟨first, second, rfl⟩ := List.append_of_mem hmem
    have hbefore : Forward (first ++ other :: second) :=
      hforward.mono fun s hs => List.mem_append_left _ hs
    have hle : ∀ s ∈ first, s.le other = true :=
      fun s hs => le_step (List.pairwise_append.1 hsorted).1 hs
    have hstart : start ≤ other.target :=
      Nat.le_trans (h ▸ le_final hbefore start) (Nat.le_of_lt hlow)
    have hfires : other.fires (runSteps first start).2 = true :=
      (fires_unset_iff (hbefore.mono fun s hs => List.mem_append_left _ hs) hle hunset).2 hstart
    have hfinal := target_le_final_of_fires
      (hbefore.mono fun s hs => List.mem_append_right _ (List.mem_cons_of_mem _ hs)) hfires
    exact absurd (h ▸ hfinal) (Nat.not_le_of_lt hlow)
  · rcases List.mem_cons.1 hmem with rfl | hmem
    · simp [ho] at hunset
    · have hlt := Step.target_lt_of_le (step_le hsorted hmem) ho hunset
      exact absurd hhigh (Nat.not_le_of_lt hlt)

/-- The version is at an exact origin only if no step before has the same origin. -/
theorem first_of_final_eq {origin : Version} (h : (runSteps before start).2 = origin)
    {other : Step} (hother : other ∈ before) : other.origin ≠ .exact origin := by
  intro ho
  obtain ⟨first, second, rfl⟩ := List.append_of_mem hother
  have hbefore : Forward (first ++ other :: second) :=
    hforward.mono fun s hs => List.mem_append_left _ hs
  have hlt : origin < other.target := hbefore other (by simp) origin ho
  by_cases hfires : other.fires (runSteps first start).2 = true
  · have hfinal := target_le_final_of_fires
      (hbefore.mono fun s hs => List.mem_append_right _ (List.mem_cons_of_mem _ hs)) hfires
    exact absurd (h ▸ hfinal) (Nat.not_le_of_lt hlt)
  · -- The version was elsewhere, and whatever moved it since leads above the origin.
    rw [runSteps_append, runSteps_cons, if_neg hfires] at h
    rcases final_eq_or_mem second (runSteps first start).2 with heq | ⟨s, hs, heq⟩
    · exact hfires ((Step.fires_of_exact ho).2 (heq.symm.trans h))
    · have hge := Step.target_le_of_le
        (step_le (List.pairwise_append.1 hsorted).1 (mem_of_mem_fired hs))
      rw [heq.trans h] at hge
      exact absurd hge (Nat.not_le_of_lt hlt)

/-- The version is at an exact origin if it has reached it and nothing leads away. -/
theorem final_eq_of_reached {origin : Version} (ho : step.origin = .exact origin)
    (hreached : origin = start ∨
      ∃ s ∈ (runSteps (before ++ step :: after) start).1, s.target = origin)
    (hpassed : ∀ other ∈ before ++ step :: after, other.origin = .unset →
      ¬ (origin < other.target ∧ other.target ≤ step.target))
    (hfirst : ∀ other ∈ before, other.origin ≠ .exact origin) :
    (runSteps before start).2 = origin := by
  have hstay : ∀ s ∈ before, s.fires origin = true → s.target = origin := by
    intro s hs hfires
    cases hso : s.origin with
    | unset =>
      have hlow := (Step.fires_of_unset hso).1 hfires
      have hhigh := Step.target_le_of_le (le_step hsorted hs)
      have hnot := hpassed s (List.mem_append_left _ hs) hso
      lia
    | exact other =>
      have heq := (Step.fires_of_exact hso).1 hfires
      exact absurd (heq ▸ hso) (hfirst s hs)
  have hlt : origin < step.target := hforward step (by simp) origin ho
  rcases hreached with rfl | ⟨s, hs, htarget⟩
  · exact final_eq_self hstay
  · have hs : s ∈ (runSteps before start).1 := by
      rw [runSteps_append] at hs
      rcases List.mem_append.1 hs with hs | hs
      · exact hs
      · -- A step from this position on leads above the origin.
        have hge : step.target ≤ s.target := by
          rcases List.mem_cons.1 (mem_of_mem_fired hs) with rfl | hs
          · exact Nat.le_refl _
          · exact Step.target_le_of_le (step_le hsorted hs)
        rw [htarget] at hge
        exact absurd hge (Nat.not_le_of_lt hlt)
    obtain ⟨first, second, rfl, hfires⟩ := exists_split_of_mem_fired hs
    rw [runSteps_append, runSteps_cons, if_pos hfires, htarget]
    exact final_eq_self fun s hs => hstay s (List.mem_append_right _ (List.mem_cons_of_mem _ hs))

/-- A step with an exact origin is performed when the origin is reached, no open step
leads past it and no earlier step has it. -/
theorem fires_exact_iff {origin : Version} (ho : step.origin = .exact origin) :
    step.fires (runSteps before start).2 = true ↔
      (origin = start ∨
        ∃ s ∈ (runSteps (before ++ step :: after) start).1, s.target = origin) ∧
      (∀ other ∈ before ++ step :: after, other.origin = .unset →
        ¬ (origin < other.target ∧ other.target ≤ step.target)) ∧
      (∀ other ∈ before, other.origin ≠ .exact origin) := by
  rw [Step.fires_of_exact ho]
  constructor
  · intro h
    refine ⟨?_, fun other hother hunset =>
      not_passed_of_final_eq hforward hsorted ho h hother hunset,
      fun other hother => first_of_final_eq hforward hsorted h hother⟩
    rcases final_eq_or_mem before start with heq | ⟨s, hs, heq⟩
    · exact .inl (h.symm.trans heq)
    · refine .inr ⟨s, ?_, heq.trans h⟩
      rw [runSteps_append]
      exact List.mem_append_left _ hs
  · rintro ⟨hreached, hpassed, hfirst⟩
    exact final_eq_of_reached hforward hsorted ho hreached hpassed hfirst

end Position

/-! ## The run of a plan -/

namespace Plan

/-- Whether a run performs the step at a position of the plan: its guard holds at the
version that the steps before it lead to. -/
def firesAt (p : Plan) (start : Version) (i : Nat) : Bool :=
  match p.steps[i]? with
  | some step => step.fires (runSteps (p.steps.take i) start).2
  | none => false

/-- A version is the start of a run or the target of a step that it performs. -/
def Reaches (p : Plan) (start version : Version) : Prop :=
  version = start ∨ ∃ step ∈ (p.run start).fired, step.target = version

/-- A step with an open origin leads past a version, but not past another one. -/
def Passes (p : Plan) (low high : Version) : Prop :=
  ∃ step ∈ p.steps, step.origin = .unset ∧ low < step.target ∧ step.target ≤ high

/-- No step before a position has a given exact origin. -/
def IsFirstFrom (p : Plan) (origin : Version) (i : Nat) : Prop :=
  ∀ j < i, ∀ step, p.steps[j]? = some step → step.origin ≠ .exact origin

theorem split_of_getElem? {steps : List Step} {i : Nat} {step : Step}
    (h : steps[i]? = some step) : steps = steps.take i ++ step :: steps.drop (i + 1) := by
  obtain ⟨hi, rfl⟩ := List.getElem?_eq_some_iff.1 h
  rw [← List.drop_eq_getElem_cons hi, List.take_append_drop]

theorem isFirstFrom_iff {p : Plan} {origin : Version} {i : Nat} :
    p.IsFirstFrom origin i ↔ ∀ step ∈ p.steps.take i, step.origin ≠ .exact origin := by
  simp only [IsFirstFrom, List.mem_iff_getElem?, List.getElem?_take]
  constructor
  · rintro h step ⟨j, hj⟩
    split at hj
    · rename_i hlt
      exact h j hlt step hj
    · cases hj
  · intro h j hlt step hj
    exact h step ⟨j, by rw [if_pos hlt, hj]⟩

theorem not_passes_iff {p : Plan} {low high : Version} :
    ¬ p.Passes low high ↔
      ∀ step ∈ p.steps, step.origin = .unset → ¬ (low < step.target ∧ step.target ≤ high) := by
  simp [Passes]

/-- What a run performs are the steps at the positions that fire, in order. -/
theorem run_fired (p : Plan) (start : Version) :
    (p.run start).fired =
      (p.steps.zipIdx.filter fun entry => p.firesAt start entry.2).map (·.1) := by
  -- The induction is on the steps that are left after `before`.
  have key : ∀ rest before, p.steps = before ++ rest →
      (runSteps rest (runSteps before start).2).1 =
        ((rest.zipIdx before.length).filter fun entry => p.firesAt start entry.2).map (·.1) := by
    intro rest
    induction rest with
    | nil => intro before _; rfl
    | cons step rest ih =>
      intro before hsplit
      have hfires : p.firesAt start before.length =
          step.fires (runSteps before start).2 := by
        simp [firesAt, hsplit]
      have hnext : p.steps = (before ++ [step]) ++ rest := by simp [hsplit]
      have hrest := ih (before ++ [step]) hnext
      rw [runSteps_append, runSteps_cons, List.length_append, List.length_singleton] at hrest
      rw [runSteps_cons, List.zipIdx_cons, List.filter_cons, hfires]
      split
      · rename_i h
        rw [if_pos h] at hrest
        simpa using hrest
      · rename_i h
        rw [if_neg h] at hrest
        simpa using hrest
  exact key p.steps [] rfl

/-- **The closed form of a run.**  Which steps of a plan a run performs, and where it
ends, when every exact origin lies below its target. -/
theorem run_closed_form (target : Version) {steps : List Step} (hforward : Forward steps)
    (start : Version) :
    let plan := Plan.ofSteps target steps
    let run := plan.run start
    run.fired = (plan.steps.zipIdx.filter fun entry => plan.firesAt start entry.2).map (·.1) ∧
    (∀ i step, plan.steps[i]? = some step → step.origin = .unset →
      (plan.firesAt start i = true ↔ start ≤ step.target)) ∧
    (∀ i step origin, plan.steps[i]? = some step → step.origin = .exact origin →
      (plan.firesAt start i = true ↔
        plan.Reaches start origin ∧ ¬ plan.Passes origin step.target ∧
          plan.IsFirstFrom origin i)) ∧
    run.final = (run.fired.map (·.target)).foldl max start := by
  intro plan run
  have hplan : Forward plan.steps := hforward.mono fun s hs => mem_ofSteps.1 hs
  have hsorted : plan.steps.Pairwise fun a b => a.le b = true := pairwise_ofSteps
  have hfires : ∀ {i step}, plan.steps[i]? = some step →
      plan.firesAt start i = step.fires (runSteps (plan.steps.take i) start).2 := by
    intro i step hi
    simp [firesAt, hi]
  refine ⟨plan.run_fired start, ?_, ?_, final_eq_foldl_max hplan start⟩
  · intro i step hi ho
    have hsplit := split_of_getElem? hi
    rw [hsplit] at hsorted
    rw [hfires hi]
    exact fires_unset_iff (hplan.mono fun s hs => List.mem_of_mem_take hs)
      (fun s hs => le_step hsorted hs) ho
  · intro i step origin hi ho
    have hsplit := split_of_getElem? hi
    rw [hfires hi, fires_exact_iff (hsplit ▸ hplan) (hsplit ▸ hsorted) ho, ← hsplit,
      not_passes_iff, isFirstFrom_iff]
    rfl

/-- The closed form at a plan with open and exact origins, two of which compete. -/
theorem run_closed_form_mixed :
    let steps : List Step :=
      [⟨⟨.unset, 4⟩, "toFour"⟩, ⟨⟨.exact 1, 3⟩, "oneToThree"⟩, ⟨⟨.exact 3, 6⟩, "shadowed"⟩,
        ⟨⟨.exact 1, 5⟩, "late"⟩]
    Forward steps ∧
      ((Plan.ofSteps 6 steps).firesAt 1 0 = true ↔
        (Plan.ofSteps 6 steps).Reaches 1 1 ∧ ¬ (Plan.ofSteps 6 steps).Passes 1 3 ∧
          (Plan.ofSteps 6 steps).IsFirstFrom 1 0) ∧
      ((Plan.ofSteps 6 steps).run 1).final = 4 := by
  intro steps
  have hforward : Forward steps := by
    simp [steps, Forward]
  obtain ⟨-, -, hexact, hfinal⟩ := run_closed_form 6 hforward 1
  refine ⟨hforward, hexact 0 ⟨⟨.exact 1, 3⟩, "oneToThree"⟩ 1 (by decide) rfl, ?_⟩
  rw [hfinal]
  decide

end Plan

end DaoGen.Upgrade
