import DaoGen.Proofs.Helper.Conditions
set_option autoImplicit false

/-!
# What a routine can be refused with

The checks of a routine come one after the other, and the first that fails is reported.  Whatever
is reported is one of a few complaints, each about a part of the routine (`Refusal`).
-/

namespace DaoGen

open DaoGen.Upgrade

namespace RoutineDeclaration

/-- What a routine can be refused with. -/
inductive Refusal (runtime : RuntimeNames) (r : RoutineDeclaration) : Diagnostic → Prop where
  | modifiers {modifier : String} (h : r.rejected = some modifier) :
      Refusal runtime r ⟨.upgradeModifiers r.method modifier, r.place⟩
  | parameterCount : Refusal runtime r
      ⟨.upgradeParameterCount r.method r.parameters.length runtime.database
        runtime.connectionSource, r.place⟩
  | firstParameter {parameter : RoutineParameter} (h : parameter ∈ r.parameters) :
      Refusal runtime r ⟨.upgradeFirstParameter r.method runtime.database, parameter.place⟩
  | secondParameter {parameter : RoutineParameter} (h : parameter ∈ r.parameters) :
      Refusal runtime r ⟨.upgradeSecondParameter r.method runtime.connectionSource, parameter.place⟩
  | argument {issue : ArgumentIssue} (h : issue ∈ r.issues) : Refusal runtime r issue.diagnostic
  | missingTarget : Refusal runtime r ⟨.missingToVersion r.method, r.decoratorPlace⟩
  | invalidTarget {declared : Located Int} (h : r.toVersion = some declared) : Refusal runtime r
      ⟨.invalidUpgradeVersion r.method "toVersion" declared.value, declared.place⟩
  | invalidOrigin {declared : Located Int} (h : r.fromVersion = some declared) : Refusal runtime r
      ⟨.invalidUpgradeVersion r.method "fromVersion" declared.value, declared.place⟩

variable {runtime : RuntimeNames} {r : RoutineDeclaration} {e : Diagnostic}

/-- A routine that is not accepted is refused with one of these. -/
theorem refusal_of_accept (h : r.accept runtime = .error e) : r.Refusal runtime e := by
  obtain ⟨_, c, _, _, _, _, hreports⟩ := accept_eq_error_iff.1 h
  cases hreports with
  | modifiers hrejected => exact .modifiers hrejected
  | parameterCount => exact .parameterCount
  | firstParameter hq => exact .firstParameter (List.mem_of_getElem? hq)
  | secondParameter hq => exact .secondParameter (List.mem_of_getElem? hq)
  | arguments hissue => exact .argument (List.mem_of_head? hissue)
  | missingTarget => exact .missingTarget
  | invalidTarget hdeclared => exact .invalidTarget hdeclared
  | invalidOrigin hdeclared => exact .invalidOrigin hdeclared

end RoutineDeclaration

end DaoGen
