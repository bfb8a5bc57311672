import DaoGen.Helper.Acceptance
import Mathlib.Data.List.Basic
set_option autoImplicit false

/-!
# What checking a helper declaration gives

A declaration with a usable name and version makes one helper when nothing is wrong with
it.  Otherwise it gives everything that is wrong with it.
-/

namespace DaoGen.HelperDeclaration

open DaoGen.Upgrade DaoGen.Schema

/-! ## Values and errors -/

theorem values_map {ε α β : Type} (f : α → β) (outcomes : List (Except ε α)) :
    values (outcomes.map (Except.map f)) = (values outcomes).map f := by
  rw [values, values, List.filterMap_map, List.map_filterMap]
  refine List.filterMap_congr fun outcome _ => ?_
  cases outcome <;> rfl

theorem errors_map {ε α β : Type} (f : α → β) (outcomes : List (Except ε α)) :
    errors (outcomes.map (Except.map f)) = errors outcomes := by
  rw [errors, errors, List.filterMap_map]
  refine List.filterMap_congr fun outcome _ => ?_
  cases outcome <;> rfl

theorem mem_values {ε α : Type} {outcomes : List (Except ε α)} {a : α} :
    a ∈ values outcomes ↔ .ok a ∈ outcomes := by
  rw [values, List.mem_filterMap]
  constructor
  · rintro ⟨outcome, hmem, hok⟩
    cases outcome with
    | ok b =>
      obtain rfl := Option.some.inj hok
      exact hmem
    | error e => cases hok
  · intro hmem
    exact ⟨.ok a, hmem, rfl⟩

/-! ## The result -/

variable {p : Program} {registry : Registry} {runtime : RuntimeNames} {d : HelperDeclaration}
  {routines : List RoutineDeclaration}

/-- The helper that a declaration makes with an accepted name and version. -/
def made (p : Program) (registry : Registry) (runtime : RuntimeNames) (d : HelperDeclaration)
    (routines : List RoutineDeclaration) (name : String) (version : Version) : Helper where
  name := name
  version := version
  tables := values (d.tables.map (acceptTable registry))
  drops := d.drops
  writesConfig := d.writesConfig
  migration := .ofDeclared d.drops version (values (routines.map (·.accept runtime)))
  owner := d.owner
  ownerName := (p.classAt d.owner).name
  ownerHome := p.homeOf d.owner
  place := d.place

theorem result_accept_of_ok {name : String} {version : Version}
    (hname : d.acceptName p = .ok name) (hversion : d.acceptVersion = .ok version) :
    (d.accept p registry runtime routines).result =
      if (d.diagnostics p registry runtime routines).isEmpty then
        .ok (d.made p registry runtime routines name version)
      else .error (d.diagnostics p registry runtime routines) := by
  simp only [accept_def, conclude, hname, hversion]
  split <;> rfl

theorem result_accept_of_name_error {e : Diagnostic} (hname : d.acceptName p = .error e) :
    (d.accept p registry runtime routines).result =
      .error (d.diagnostics p registry runtime routines) := by
  simp only [accept_def, conclude, hname]

theorem result_accept_of_version_error {e : Diagnostic} (hversion : d.acceptVersion = .error e) :
    (d.accept p registry runtime routines).result =
      .error (d.diagnostics p registry runtime routines) := by
  simp only [accept_def, conclude, hversion]
  cases d.acceptName p <;> rfl

/-- An accepted declaration has made its helper of its own name and version. -/
theorem exists_of_result_accept {h : Helper}
    (hresult : (d.accept p registry runtime routines).result = .ok h) :
    ∃ name version, d.acceptName p = .ok name ∧ d.acceptVersion = .ok version ∧
      h = d.made p registry runtime routines name version := by
  cases hname : d.acceptName p with
  | error e =>
    rw [result_accept_of_name_error hname] at hresult
    cases hresult
  | ok name =>
    cases hversion : d.acceptVersion with
    | error e =>
      rw [result_accept_of_version_error hversion] at hresult
      cases hresult
    | ok version =>
      rw [result_accept_of_ok hname hversion] at hresult
      split at hresult
      · exact ⟨name, version, rfl, rfl, (Except.ok.inj hresult).symm⟩
      · cases hresult

end DaoGen.HelperDeclaration
