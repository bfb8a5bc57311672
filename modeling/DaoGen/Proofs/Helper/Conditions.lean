import DaoGen.Helper.Acceptance
import Mathlib.Tactic.Common
set_option autoImplicit false

/-!
# What a routine is checked for

A routine is checked for a few conditions in a fixed order (`Condition.all`).  It makes a step
exactly when it meets all of them (`accept_eq_ok_iff`), and otherwise it is refused with the
diagnostic of the first that it does not meet (`accept_eq_error_iff`).
-/

namespace DaoGen

namespace RoutineDeclaration

open DaoGen.Upgrade
open DaoGen.HelperDeclaration (error?)

/-! ## Conditions -/

/-- What a routine is checked for. -/
inductive Condition where
  /-- it is a public instance method without a result -/
  | modifiers
  | parameterCount
  /-- the first parameter is a database of the runtime -/
  | firstParameter
  /-- the second one is a connection source of the runtime -/
  | secondParameter
  /-- every argument has a usable value -/
  | arguments
  | target
  | origin

/-- The conditions in the order of the checks. -/
def Condition.all : List Condition :=
  [.modifiers, .parameterCount, .firstParameter, .secondParameter, .arguments, .target, .origin]

theorem Condition.mem_all (c : Condition) : c ∈ all := by
  cases c <;> simp [all]

section

variable (runtime : RuntimeNames) (r : RoutineDeclaration)

/-- Whether a routine meets a condition.  One on a parameter is about the parameter in its place, if
there is one. -/
def Meets : Condition → Prop
  | .modifiers => r.rejected = none
  | .parameterCount => r.parameters.length = 2
  | .firstParameter => ∀ q, r.parameters[0]? = some q →
    q.identity = some (runtimeIdentity runtime runtime.database)
  | .secondParameter => ∀ q, r.parameters[1]? = some q →
    q.identity = some (runtimeIdentity runtime runtime.connectionSource)
  | .arguments => r.issues = []
  | .target => ∃ declared, r.toVersion = some declared ∧
    0 ≤ declared.value ∧ declared.value < Version.limit
  | .origin => ∀ declared, r.fromVersion = some declared →
    declared.value = -1 ∨ 0 ≤ declared.value ∧ declared.value < Version.limit

/-- The diagnostics that say of a condition that it is not met. -/
inductive Reports : Condition → Diagnostic → Prop where
  | modifiers {modifier : String} (h : r.rejected = some modifier) :
    Reports .modifiers ⟨.upgradeModifiers r.method modifier, r.place⟩
  | parameterCount : Reports .parameterCount
      ⟨.upgradeParameterCount r.method r.parameters.length runtime.database
        runtime.connectionSource, r.place⟩
  | firstParameter {q : RoutineParameter} (h : r.parameters[0]? = some q) :
    Reports .firstParameter ⟨.upgradeFirstParameter r.method runtime.database, q.place⟩
  | secondParameter {q : RoutineParameter} (h : r.parameters[1]? = some q) :
    Reports .secondParameter ⟨.upgradeSecondParameter r.method runtime.connectionSource, q.place⟩
  | arguments {issue : ArgumentIssue} (h : r.issues.head? = some issue) :
    Reports .arguments issue.diagnostic
  | missingTarget (h : r.toVersion = none) :
    Reports .target ⟨.missingToVersion r.method, r.decoratorPlace⟩
  | invalidTarget {declared : Located Int} (h : r.toVersion = some declared) :
    Reports .target ⟨.invalidUpgradeVersion r.method "toVersion" declared.value, declared.place⟩
  | invalidOrigin {declared : Located Int} (h : r.fromVersion = some declared) :
    Reports .origin ⟨.invalidUpgradeVersion r.method "fromVersion" declared.value, declared.place⟩

/-- A step with the versions and the name of a routine.  An origin that is not given, or `-1`, is
open. -/
structure Yields (step : Step) : Prop where
  routine : step.routine = r.method
  target : ∃ declared, r.toVersion = some declared ∧ declared.value = (step.target : Int)
  origin : match step.origin with
    | .unset => ∀ declared, r.fromVersion = some declared → declared.value = -1
    | .exact version => ∃ declared, r.fromVersion = some declared ∧ declared.value = (version : Int)

/-! ## One condition -/

/-- What the check of a condition alone complains about. -/
def report? : Condition → Option Diagnostic
  | .modifiers => error? r.checkModifiers
  | .parameterCount => error? (r.twoParameters runtime)
  | .firstParameter => r.parameters[0]?.bind fun q =>
    error? (checkParameter runtime q runtime.database
      (.upgradeFirstParameter r.method runtime.database))
  | .secondParameter => r.parameters[1]?.bind fun q =>
    error? (checkParameter runtime q runtime.connectionSource
      (.upgradeSecondParameter r.method runtime.connectionSource))
  | .arguments => error? r.checkIssues
  | .target => error? r.targetVersion
  | .origin => error? r.originVersion

end

section

variable {runtime : RuntimeNames} {r : RoutineDeclaration}

/-- A condition is met and its check says nothing, or it is not and the check says the one thing
that reports it. -/
def Settled (runtime : RuntimeNames) (r : RoutineDeclaration) (c : Condition) : Prop :=
  r.Meets runtime c ∧ r.report? runtime c = none ∨
    ¬ r.Meets runtime c ∧ ∃ e, r.report? runtime c = some e ∧
      ∀ e', r.Reports runtime c e' ↔ e' = e

theorem settled_of_meets {c : Condition} (h : r.Meets runtime c)
    (hreport : r.report? runtime c = none) : Settled runtime r c := .inl ⟨h, hreport⟩

theorem settled_of_reports {c : Condition} {e : Diagnostic} (h : ¬ r.Meets runtime c)
    (hreport : r.report? runtime c = some e) (hreports : r.Reports runtime c e)
    (hunique : ∀ e', r.Reports runtime c e' → e' = e) : Settled runtime r c :=
  .inr ⟨h, e, hreport, fun e' => ⟨hunique e', fun heq => heq ▸ hreports⟩⟩

theorem settled_modifiers : Settled runtime r .modifiers := by
  cases h : r.rejected with
  | none =>
    refine settled_of_meets h ?_
    rw [report?, checkModifiers, h]
    rfl
  | some modifier =>
    refine settled_of_reports (by simp [Meets, h]) ?_ (.modifiers h) ?_
    · rw [report?, checkModifiers, h]
      rfl
    · intro e' hreports
      cases hreports with
      | modifiers h' => rw [Option.some.inj (h.symm.trans h')]

theorem settled_parameterCount : Settled runtime r .parameterCount := by
  by_cases h : r.parameters.length = 2
  · refine settled_of_meets h ?_
    rw [report?, twoParameters]
    split
    · rfl
    · rename_i hother
      match hparameters : r.parameters, h with
      | [first, second], _ => exact absurd hparameters (hother first second)
  · refine settled_of_reports h ?_ .parameterCount ?_
    · rw [report?, twoParameters]
      split
      · rename_i first second hparameters
        exact absurd (congrArg List.length hparameters) h
      · rfl
    · intro e' hreports
      cases hreports with
      | parameterCount => rfl

/-- A type is an exported name of the runtime when it has the name and is from its package. -/
theorem identity_beq_iff {identity : Option Identity} {name : String} :
    (identity == some (runtimeIdentity runtime name)) = true ↔
      identity = some (runtimeIdentity runtime name) := by
  rcases identity with _ | ⟨⟨specifier⟩ | path, other⟩
  · exact iff_of_false nofun nofun
  · show ((specifier == runtime.home) && (other == name)) = true ↔ _
    simp [runtimeIdentity]
  · refine iff_of_false nofun fun h => ?_
    simp [runtimeIdentity] at h

theorem error?_checkParameter_of_eq {q : RoutineParameter} {name : String} {complaint : Complaint}
    (h : q.identity = some (runtimeIdentity runtime name)) :
    error? (checkParameter runtime q name complaint) = none := by
  rw [checkParameter, if_pos (identity_beq_iff.2 h)]
  rfl

theorem error?_checkParameter_of_ne {q : RoutineParameter} {name : String} {complaint : Complaint}
    (h : q.identity ≠ some (runtimeIdentity runtime name)) :
    error? (checkParameter runtime q name complaint) = some ⟨complaint, q.place⟩ := by
  rw [checkParameter, if_neg fun hbeq => h (identity_beq_iff.1 hbeq)]
  rfl

/-- The condition on a parameter is settled by the parameter in its place. -/
theorem settled_parameter {c : Condition} {i : Nat} {name : String} {complaint : Complaint}
    (hmeets : r.Meets runtime c ↔ ∀ q, r.parameters[i]? = some q →
      q.identity = some (runtimeIdentity runtime name))
    (hreport : r.report? runtime c = r.parameters[i]?.bind fun q =>
      error? (checkParameter runtime q name complaint))
    (hreports : ∀ e, r.Reports runtime c e ↔
      ∃ q, r.parameters[i]? = some q ∧ e = ⟨complaint, q.place⟩) : Settled runtime r c := by
  cases hq : r.parameters[i]? with
  | none =>
    rw [hq] at hmeets hreport
    exact settled_of_meets (hmeets.2 nofun) hreport
  | some q =>
    rw [hq, Option.bind_some] at hreport
    simp only [hq, Option.some.injEq, forall_eq', exists_eq_left'] at hmeets hreports
    by_cases h : q.identity = some (runtimeIdentity runtime name)
    · exact settled_of_meets (hmeets.2 h) (hreport.trans (error?_checkParameter_of_eq h))
    · exact settled_of_reports (mt hmeets.1 h) (hreport.trans (error?_checkParameter_of_ne h))
        ((hreports _).2 rfl) fun e' => (hreports e').1

theorem settled_firstParameter : Settled runtime r .firstParameter := by
  refine settled_parameter Iff.rfl rfl fun e => ⟨fun hreports => ?_, ?_⟩
  · cases hreports with
    | firstParameter hq => exact ⟨_, hq, rfl⟩
  · rintro ⟨q, hq, rfl⟩
    exact .firstParameter hq

theorem settled_secondParameter : Settled runtime r .secondParameter := by
  refine settled_parameter Iff.rfl rfl fun e => ⟨fun hreports => ?_, ?_⟩
  · cases hreports with
    | secondParameter hq => exact ⟨_, hq, rfl⟩
  · rintro ⟨q, hq, rfl⟩
    exact .secondParameter hq

theorem settled_arguments : Settled runtime r .arguments := by
  cases h : r.issues with
  | nil =>
    refine settled_of_meets h ?_
    rw [report?, checkIssues, h]
    rfl
  | cons issue rest =>
    have hhead : r.issues.head? = some issue := by rw [h, List.head?_cons]
    refine settled_of_reports (by simp [Meets, h]) ?_ (.arguments hhead) ?_
    · rw [report?, checkIssues, h]
      rfl
    · intro e' hreports
      cases hreports with
      | arguments hhead' => rw [Option.some.inj (hhead.symm.trans hhead')]

/-- An integer is a version when it is in range. -/
theorem ofInt?_eq_none_iff {value : Int} :
    Version.ofInt? value = none ↔ ¬ (0 ≤ value ∧ value < Version.limit) := by
  unfold Version.ofInt?
  split <;> simp_all

theorem settled_target : Settled runtime r .target := by
  cases hdeclared : r.toVersion with
  | none =>
    refine settled_of_reports (by simp [Meets, hdeclared]) ?_ (.missingTarget hdeclared) ?_
    · rw [report?, targetVersion, hdeclared]
      rfl
    · intro e' hreports
      cases hreports with
      | missingTarget => rfl
      | invalidTarget hdeclared' => cases hdeclared.symm.trans hdeclared'
  | some declared =>
    cases hversion : Version.ofInt? declared.value with
    | none =>
      have hout := ofInt?_eq_none_iff.1 hversion
      refine settled_of_reports (by simpa [Meets, hdeclared] using hout) ?_
        (.invalidTarget hdeclared) ?_
      · rw [report?, targetVersion, hdeclared]
        dsimp only
        rw [hversion]
        rfl
      · intro e' hreports
        cases hreports with
        | missingTarget hnone => cases hdeclared.symm.trans hnone
        | invalidTarget hdeclared' => rw [Option.some.inj (hdeclared.symm.trans hdeclared')]
    | some version =>
      obtain ⟨hvalue, hlt⟩ := Version.ofInt?_eq_some_iff.1 hversion
      refine settled_of_meets ⟨declared, hdeclared, by omega, by omega⟩ ?_
      rw [report?, targetVersion, hdeclared]
      dsimp only
      rw [hversion]
      rfl

/-- An origin can be declared as `-1` or as a version. -/
theorem ofDeclared?_eq_none_iff {value : Int} : Origin.ofDeclared? value = none ↔
    ¬ (value = -1 ∨ 0 ≤ value ∧ value < Version.limit) := by
  unfold Origin.ofDeclared?
  split
  · rename_i hunset
    exact iff_of_false nofun fun hnot => hnot (.inl hunset)
  · rename_i hunset
    rw [Option.map_eq_none_iff, ofInt?_eq_none_iff]
    exact not_congr (or_iff_right hunset).symm

theorem settled_origin : Settled runtime r .origin := by
  cases hdeclared : r.fromVersion with
  | none =>
    refine settled_of_meets (by simp [Meets, hdeclared]) ?_
    rw [report?, originVersion, hdeclared]
    rfl
  | some declared =>
    cases horigin : Origin.ofDeclared? declared.value with
    | none =>
      have hout := ofDeclared?_eq_none_iff.1 horigin
      refine settled_of_reports (by simpa [Meets, hdeclared] using hout) ?_
        (.invalidOrigin hdeclared) ?_
      · rw [report?, originVersion, hdeclared]
        dsimp only
        rw [horigin]
        rfl
      · intro e' hreports
        cases hreports with
        | invalidOrigin hdeclared' => rw [Option.some.inj (hdeclared.symm.trans hdeclared')]
    | some origin =>
      have hin := mt ofDeclared?_eq_none_iff.2 (by rw [horigin]; exact Option.some_ne_none origin)
      refine settled_of_meets (by simpa [Meets, hdeclared] using not_not.1 hin) ?_
      rw [report?, originVersion, hdeclared]
      dsimp only
      rw [horigin]
      rfl

theorem settled (runtime : RuntimeNames) (r : RoutineDeclaration) (c : Condition) :
    Settled runtime r c :=
  match c with
  | .modifiers => settled_modifiers
  | .parameterCount => settled_parameterCount
  | .firstParameter => settled_firstParameter
  | .secondParameter => settled_secondParameter
  | .arguments => settled_arguments
  | .target => settled_target
  | .origin => settled_origin

theorem report?_eq_none_iff (c : Condition) : r.report? runtime c = none ↔ r.Meets runtime c := by
  rcases settled runtime r c with ⟨hmeets, hreport⟩ | ⟨hnot, e, hreport, -⟩
  · exact iff_of_true hreport hmeets
  · exact iff_of_false (by rw [hreport]; exact Option.some_ne_none e) hnot

theorem report?_eq_some_iff (c : Condition) (e : Diagnostic) :
    r.report? runtime c = some e ↔ ¬ r.Meets runtime c ∧ r.Reports runtime c e := by
  rcases settled runtime r c with ⟨hmeets, hreport⟩ | ⟨hnot, e', hreport, hall⟩
  · refine iff_of_false ?_ fun h => h.1 hmeets
    rw [hreport]
    exact nofun
  · rw [hreport, hall, and_iff_right hnot, Option.some.injEq]
    exact eq_comm

/-! ## All conditions -/

theorem parameters_of_twoParameters {first second : RoutineParameter}
    (h : r.twoParameters runtime = .ok (first, second)) : r.parameters = [first, second] := by
  unfold twoParameters at h
  split at h
  · rename_i hparameters
    cases h
    exact hparameters
  · cases h

/-- A check before others complains first. -/
theorem error?_bind {α β : Type} {check : Except Diagnostic α} {next : α → Except Diagnostic β}
    {report : Condition → Option Diagnostic} {c : Condition} {later : List Condition}
    (hcheck : error? check = report c)
    (hnext : ∀ a, check = .ok a → error? (next a) = later.findSome? report) :
    error? (check >>= next) = (c :: later).findSome? report := by
  rw [List.findSome?_cons, ← hcheck]
  cases check with
  | error e => rfl
  | ok a => exact hnext a rfl

/-- A routine is refused with what the first check that complains says. -/
theorem error?_accept :
    error? (r.accept runtime) = Condition.all.findSome? (r.report? runtime) := by
  refine error?_bind rfl fun _ _ => error?_bind rfl fun pair htwo => ?_
  obtain ⟨first, second⟩ := pair
  have hparameters := parameters_of_twoParameters htwo
  have hfirst : r.parameters[0]? = some first := by rw [hparameters]; rfl
  have hsecond : r.parameters[1]? = some second := by rw [hparameters]; rfl
  refine error?_bind (by rw [report?, hfirst, Option.bind_some]) fun _ _ =>
    error?_bind (by rw [report?, hsecond, Option.bind_some]) fun _ _ => ?_
  exact error?_bind rfl fun _ _ => error?_bind rfl fun _ _ => error?_bind rfl fun _ _ => rfl

theorem bind_eq_ok_iff {ε α β : Type} {check : Except ε α} {rest : α → Except ε β} {b : β} :
    (check >>= rest) = .ok b ↔ ∃ a, check = .ok a ∧ rest a = .ok b := by
  cases check <;> simp [bind, Except.bind]

theorem toVersion_of_targetVersion {target : Version} (h : r.targetVersion = .ok target) :
    ∃ declared, r.toVersion = some declared ∧ declared.value = (target : Int) := by
  unfold targetVersion at h
  split at h
  · cases h
  · rename_i declared hdeclared
    split at h
    · rename_i version hversion
      cases h
      exact ⟨declared, hdeclared, (Version.ofInt?_eq_some_iff.1 hversion).1⟩
    · cases h

theorem yields_of_originVersion {target : Version} {origin : Origin}
    (htarget : r.targetVersion = .ok target) (horigin : r.originVersion = .ok origin) :
    r.Yields ⟨⟨origin, target⟩, r.method⟩ := by
  refine ⟨rfl, toVersion_of_targetVersion htarget, ?_⟩
  unfold originVersion at horigin
  split at horigin
  · rename_i hnone
    cases horigin
    intro declared hdeclared
    cases hnone.symm.trans hdeclared
  · rename_i declared hdeclared
    split at horigin
    · rename_i origin' hof
      cases horigin
      unfold Origin.ofDeclared? at hof
      split at hof
      · rename_i hunset
        cases hof
        intro declared' hdeclared'
        obtain rfl := Option.some.inj (hdeclared.symm.trans hdeclared')
        exact hunset
      · obtain ⟨version, hversion, rfl⟩ := Option.map_eq_some_iff.1 hof
        exact ⟨declared, hdeclared, (Version.ofInt?_eq_some_iff.1 hversion).1⟩
    · cases horigin

/-- An accepted routine makes a step of its own versions and name. -/
theorem yields_of_accept {step : Step} (h : r.accept runtime = .ok step) : r.Yields step := by
  obtain ⟨-, -, h⟩ := bind_eq_ok_iff.1 h
  obtain ⟨⟨first, second⟩, -, h⟩ := bind_eq_ok_iff.1 h
  obtain ⟨-, -, h⟩ := bind_eq_ok_iff.1 h
  obtain ⟨-, -, h⟩ := bind_eq_ok_iff.1 h
  obtain ⟨-, -, h⟩ := bind_eq_ok_iff.1 h
  obtain ⟨target, htarget, h⟩ := bind_eq_ok_iff.1 h
  obtain ⟨origin, horigin, h⟩ := bind_eq_ok_iff.1 h
  cases h
  exact yields_of_originVersion htarget horigin

/-- There is one step of the versions and the name of a routine. -/
theorem Yields.unique {step step' : Step} (h : r.Yields step) (h' : r.Yields step') :
    step = step' := by
  obtain ⟨⟨origin, target⟩, routine⟩ := step
  obtain ⟨⟨origin', target'⟩, routine'⟩ := step'
  obtain ⟨hroutine, ⟨declared, hdeclared, hvalue⟩, horigin⟩ := h
  obtain ⟨hroutine', ⟨declared', hdeclared', hvalue'⟩, horigin'⟩ := h'
  obtain rfl : routine = routine' := hroutine.trans hroutine'.symm
  obtain rfl := Option.some.inj (hdeclared.symm.trans hdeclared')
  obtain rfl : target = target' := Int.ofNat.inj (hvalue.symm.trans hvalue')
  have hsame : origin = origin' := by
    cases origin with
    | unset =>
      cases origin' with
      | unset => rfl
      | exact version' =>
        obtain ⟨declared', hdeclared', hvalue'⟩ := horigin'
        have := horigin declared' hdeclared'
        omega
    | exact version =>
      obtain ⟨declared, hdeclared, hvalue⟩ := horigin
      cases origin' with
      | unset =>
        have := horigin' declared hdeclared
        omega
      | exact version' =>
        obtain ⟨declared', hdeclared', hvalue'⟩ := horigin'
        obtain rfl := Option.some.inj (hdeclared.symm.trans hdeclared')
        obtain rfl : version = version' := Int.ofNat.inj (hvalue.symm.trans hvalue')
        rfl
  rw [hsame]

theorem accept_eq_error_iff {e : Diagnostic} : r.accept runtime = .error e ↔
    ∃ earlier c later, Condition.all = earlier ++ c :: later ∧
      (∀ c' ∈ earlier, r.Meets runtime c') ∧ ¬ r.Meets runtime c ∧ r.Reports runtime c e := by
  have herror : r.accept runtime = .error e ↔ error? (r.accept runtime) = some e := by
    cases r.accept runtime <;> simp [error?]
  rw [herror, error?_accept, List.findSome?_eq_some_iff]
  simp only [report?_eq_some_iff, report?_eq_none_iff]
  constructor
  · rintro ⟨earlier, c, later, hall, hfirst, hearlier⟩
    exact ⟨earlier, c, later, hall, hearlier, hfirst⟩
  · rintro ⟨earlier, c, later, hall, hearlier, hfirst⟩
    exact ⟨earlier, c, later, hall, hfirst, hearlier⟩

theorem accept_eq_ok_iff {step : Step} : r.accept runtime = .ok step ↔
    (∀ c, r.Meets runtime c) ∧ r.Yields step := by
  have hall : error? (r.accept runtime) = none ↔ ∀ c, r.Meets runtime c := by
    rw [error?_accept, List.findSome?_eq_none_iff]
    simp only [report?_eq_none_iff, Condition.mem_all, forall_const]
  rw [← hall]
  constructor
  · intro h
    exact ⟨by rw [h]; rfl, yields_of_accept h⟩
  · rintro ⟨hnone, hyields⟩
    cases haccept : r.accept runtime with
    | error e =>
      rw [haccept] at hnone
      cases hnone
    | ok made => rw [(yields_of_accept haccept).unique hyields]

end

end RoutineDeclaration

end DaoGen
