import DaoGen.Proofs.Helper.Acceptance
import DaoGen.Proofs.Upgrade.Order
import Mathlib.Data.Prod.Lex
import Mathlib.Data.String.Basic
set_option autoImplicit false

/-!
# Plans and the order of declarations

Steps are ranked by their target, then by whether their origin is exact, then by the origin and
last by the name of the routine; no two steps have the same rank.  A plan holds the steps that it
is made of in ascending order of rank, so it does not tell in which order they were declared, and
neither does anything that is made of it (`Plan.ascends_whatever_declared`).
-/

namespace DaoGen

open Upgrade

namespace Upgrade

/-! ## Ranks -/

/-- What steps are ordered by, the first difference deciding: the target, whether the origin is
exact, the origin, the routine. -/
def Step.rank (s : Step) : Version ×ₗ Bool ×ₗ Version ×ₗ String :=
  toLex (s.target, toLex (s.origin.version?.isSome,
    toLex (s.origin.version?.getD 0, s.routine)))

theorem Step.rank_le_iff {a b : Step} : a.rank ≤ b.rank ↔ a.le b = true := by
  rw [le_iff, rank, rank, Prod.Lex.toLex_le_toLex, Prod.Lex.toLex_le_toLex,
    Prod.Lex.toLex_le_toLex]
  refine or_congr_right (and_congr_right fun _ => ?_)
  cases ha : a.origin with
  | unset =>
    cases hb : b.origin with
    | unset => simp [Origin.version?]
    | exact t => simp [Origin.version?, Origin.le]
  | exact s =>
    cases hb : b.origin with
    | unset => simp [Origin.version?, Origin.le]
    | exact t =>
      simp [Origin.version?, Origin.le]
      lia

theorem Plan.perm_ofSteps (target : Version) (steps : List Step) :
    (ofSteps target steps).steps.Perm steps :=
  sortBy_perm Step.le steps

theorem Plan.ascending_ofSteps (target : Version) (steps : List Step) :
    (ofSteps target steps).steps.Pairwise fun a b => a.rank ≤ b.rank :=
  pairwise_ofSteps.imp Step.rank_le_iff.2

end Upgrade

/-! ## Routines declared in another order -/

namespace HelperDeclaration

open Schema

variable {p : Program} {registry : Registry} {runtime : RuntimeNames} {d : HelperDeclaration}
  {routines routines' : List RoutineDeclaration}

theorem diagnostics_perm_of_routines (h : routines.Perm routines') :
    (d.diagnostics p registry runtime routines).Perm
      (d.diagnostics p registry runtime routines') := by
  rw [diagnostics_def]
  exact ((h.map (·.accept runtime)).filterMap error?).append_left _

theorem made_eq_of_routines (h : routines.Perm routines') (name : String) (version : Version) :
    d.made p registry runtime routines name version =
      d.made p registry runtime routines' name version := by
  have houtcomes : (routines.map (·.accept runtime)).Perm (routines'.map (·.accept runtime)) :=
    h.map _
  have hsteps : (values (routines.map (·.accept runtime))).Perm
      (values (routines'.map (·.accept runtime))) :=
    houtcomes.filterMap Except.toOption
  have hmigration : Migration.ofDeclared d.drops version
      (values (routines.map (·.accept runtime))) =
        Migration.ofDeclared d.drops version (values (routines'.map (·.accept runtime))) := by
    rw [Migration.ofDeclared, Migration.ofDeclared, Plan.ofSteps_eq_of_perm hsteps]
  rw [made, made, hmigration]

/-- A declaration that makes a helper makes the same one with its routines in another order. -/
theorem result_accept_of_routines (h : routines.Perm routines') {helper : Helper}
    (hresult : (d.accept p registry runtime routines).result = .ok helper) :
    (d.accept p registry runtime routines').result = .ok helper := by
  obtain ⟨name, version, hname, hversion, -⟩ := exists_of_result_accept hresult
  rw [result_accept_of_ok hname hversion] at hresult ⊢
  rw [← (diagnostics_perm_of_routines h).isEmpty_eq, ← made_eq_of_routines h]
  split at hresult
  · rename_i hempty
    rw [if_pos hempty]
    exact hresult
  · cases hresult

end HelperDeclaration

/-! ## Plans -/

/-- A routine that takes a version to another one, or every version up to it when the origin is
left open. -/
def routineFor (name : String) (origin : Option Int) (target : Int) : RoutineDeclaration :=
  let parameter (type : String) : RoutineParameter :=
    ⟨type, some type, some ⟨.package "@ormhelper/runtime", type⟩, default⟩
  { owner := 0, method := name, rejected := none
    parameters := [parameter "SQLiteDatabase", parameter "ConnectionSource"]
    fromVersion := origin.map (⟨·, default⟩), toVersion := some ⟨target, default⟩
    issues := [], place := default, decoratorPlace := default }

/-- A plan holds its steps in ascending order of rank, each as often as it was given, and it is the
same plan whatever order they were given in.  A helper declaration therefore makes one and the same
helper in whatever order its routines are declared: with the same plan, hence the same runs from
every version and the same guards in the body of `onUpgrade`. -/
theorem Upgrade.Plan.ascends_whatever_declared (target : Version) (steps : List Step) :
    ((ofSteps target steps).target = target ∧ (ofSteps target steps).steps.Perm steps ∧
      (ofSteps target steps).steps.Pairwise fun a b => a.rank ≤ b.rank) ∧
    (∀ other, steps.Perm other → ofSteps target other = ofSteps target steps) ∧
    ∀ (p : Program) (registry : Schema.Registry) (runtime : RuntimeNames) (d : HelperDeclaration)
      (routines routines' : List RoutineDeclaration), routines.Perm routines' → ∀ helper,
      (d.accept p registry runtime routines).result = .ok helper →
        (d.accept p registry runtime routines').result = .ok helper := by
  refine ⟨⟨rfl, perm_ofSteps target steps, ascending_ofSteps target steps⟩, ?_, ?_⟩
  · intro other hother
    exact (ofSteps_eq_of_perm hother).symm
  · intro p registry runtime d routines routines' hroutines helper hresult
    exact HelperDeclaration.result_accept_of_routines hroutines hresult

/-- Three steps, two of them equal, and two declared routines, each list in two orders. -/
theorem Upgrade.Plan.ascends_whatever_declared_swapped :
    let first : Step := ⟨⟨.exact 1, 2⟩, "first"⟩
    let later : Step := ⟨⟨.unset, 3⟩, "later"⟩
    let p : Program :=
      ⟨⟨"/src"⟩, [default], [⟨"Db", 0, none, false, true, none, .inherited, default⟩], []⟩
    let d : HelperDeclaration :=
      { owner := 0, name := some ⟨"db", default⟩, version := some ⟨3, default⟩, tables := []
        drops := false, writesConfig := false, issues := [], place := default }
    let routines := [routineFor "later" none 3, routineFor "first" (some 1) 2]
    ([later, first, later].Perm [first, later, later] ∧
      ofSteps 3 [first, later, later] = ofSteps 3 [later, first, later]) ∧
    routines.Perm routines.reverse ∧
      ∃ helper, (d.accept p ⟨[]⟩ {} routines).result = .ok helper ∧
        (d.accept p ⟨[]⟩ {} routines.reverse).result = .ok helper ∧
        helper.migration.plan? = some ⟨3, [first, later]⟩ := by
  intro first later p d routines
  have hsteps : [later, first, later].Perm [first, later, later] := .swap _ _ _
  have hroutines : routines.Perm routines.reverse := routines.reverse_perm.symm
  have hplan : (d.accept p ⟨[]⟩ {} routines).result.toOption.map (·.migration.plan?) =
      some (some ⟨3, [first, later]⟩) := by decide +kernel
  obtain ⟨-, hother, hdeclared⟩ := ascends_whatever_declared 3 [later, first, later]
  refine ⟨⟨hsteps, hother _ hsteps⟩, hroutines, ?_⟩
  cases hresult : (d.accept p ⟨[]⟩ {} routines).result with
  | error ds =>
    rw [hresult] at hplan
    cases hplan
  | ok helper =>
    rw [hresult] at hplan
    exact ⟨helper, rfl, hdeclared p ⟨[]⟩ {} d routines routines.reverse hroutines helper hresult,
      Option.some.inj hplan⟩

end DaoGen
