import DaoGen.Proofs.Helper.Tables
set_option autoImplicit false

/-!
# When a helper declaration is accepted

A declaration is accepted exactly when all of its requirements are met
(`accepted_iff_requirements_met`), and what it makes is then its own data
(`made_of_result_accept`).  Otherwise each requirement that is not met has its diagnostic, unless
the class is abstract and cannot be made without arguments either (`filter_violated_eq_self_iff`).
-/

namespace DaoGen.HelperDeclaration

open DaoGen.Upgrade DaoGen.Schema

section

variable {p : Program} {registry : Registry} {runtime : RuntimeNames} {d : HelperDeclaration}
  {routines : List RoutineDeclaration}

theorem isMasked_eq_true_iff {requirement : Requirement} :
    d.isMasked p requirement = true ↔
      requirement = .constructible ∧ (p.classAt d.owner).isAbstract = true := by
  cases requirement <;> simp [isMasked]

theorem concrete_mem_violated_iff :
    .concrete ∈ d.violated p registry runtime routines ↔
      (p.classAt d.owner).isAbstract = true := by
  rw [violated, List.mem_filter]
  simp [requirements, isMet]

theorem constructible_mem_violated_iff :
    .constructible ∈ d.violated p registry runtime routines ↔ p.canMake d.owner = false := by
  rw [violated, List.mem_filter]
  simp [requirements, isMet]

/-- Where one requirement is masked another is not met. -/
theorem filter_violated_eq_nil_iff :
    (d.violated p registry runtime routines).filter (!d.isMasked p ·) = [] ↔
      d.violated p registry runtime routines = [] := by
  constructor
  · intro hnil
    have hmasked : ∀ requirement ∈ d.violated p registry runtime routines,
        d.isMasked p requirement = true := by
      simpa using List.filter_eq_nil_iff.1 hnil
    refine List.eq_nil_iff_forall_not_mem.2 fun requirement hmem => ?_
    obtain ⟨-, habstract⟩ := isMasked_eq_true_iff.1 (hmasked requirement hmem)
    exact absurd (hmasked _ (concrete_mem_violated_iff.2 habstract)) Bool.false_ne_true
  · intro hnil
    rw [hnil]
    rfl

/-- Nothing is masked unless the class is abstract and cannot be made without arguments. -/
theorem filter_violated_eq_self_iff :
    (d.violated p registry runtime routines).filter (!d.isMasked p ·) =
        d.violated p registry runtime routines ↔
      ¬ ((p.classAt d.owner).isAbstract = true ∧ p.canMake d.owner = false) := by
  rw [List.filter_eq_self]
  constructor
  · rintro hspoken ⟨habstract, hmake⟩
    have hmasked : d.isMasked p .constructible = true := isMasked_eq_true_iff.2 ⟨rfl, habstract⟩
    have hnot := hspoken _ (constructible_mem_violated_iff.2 hmake)
    rw [hmasked] at hnot
    cases hnot
  · intro hnot requirement hmem
    rw [Bool.not_eq_true', Bool.eq_false_iff]
    intro hmasked
    obtain ⟨rfl, habstract⟩ := isMasked_eq_true_iff.1 hmasked
    exact hnot ⟨habstract, constructible_mem_violated_iff.1 hmem⟩

/-- A declaration with a usable name and version has either diagnostics or a helper. -/
theorem exists_result_accept_iff :
    (∃ h, (d.accept p registry runtime routines).result = .ok h) ↔
      d.diagnostics p registry runtime routines = [] := by
  constructor
  · rintro ⟨h, hresult⟩
    exact diagnostics_eq_nil_of_result_accept hresult
  · intro hnil
    cases hresult : (d.accept p registry runtime routines).result with
    | ok h => exact ⟨h, rfl⟩
    | error ds =>
      obtain ⟨rfl, hne⟩ := of_result_accept_error hresult
      exact absurd hnil hne

/-- What an accepted declaration makes is its own data. -/
theorem made_of_result_accept {h : Helper}
    (hresult : (d.accept p registry runtime routines).result = .ok h) :
    d.name.map (·.value) = some h.name ∧ (h.version : Int) = (d.version.map (·.value)).getD 1 ∧
      List.Forall₂ (fun entry t => ∃ id, entry.resolution = .found id ∧ registry.lookup id = some t)
        d.tables h.tables ∧
      ∃ steps, routines.map (·.accept runtime) = steps.map .ok ∧
        h.migration = .ofDeclared d.drops h.version steps := by
  have htables := forall₂_acceptTable_of_accept hresult
  have hnil := diagnostics_eq_nil_of_result_accept hresult
  obtain ⟨name, version, hname, hversion, rfl⟩ := exists_of_result_accept hresult
  have hroutines : errors (routines.map (·.accept runtime)) = [] :=
    (List.append_eq_nil_iff.1 hnil).2
  refine ⟨name_of_acceptName hname, ?_, ?_, _, eq_map_values hroutines, rfl⟩
  · show (version : Int) = _
    cases hdeclared : d.version with
    | none =>
      rw [acceptVersion, hdeclared] at hversion
      rw [← Except.ok.inj hversion]
      rfl
    | some declared =>
      rw [acceptVersion_of_some hdeclared] at hversion
      split at hversion
      · rename_i hin
        rw [← Except.ok.inj hversion]
        exact Int.toNat_of_nonneg (by omega)
      · cases hversion
  · exact htables.imp fun entry t haccept => acceptTable_eq_ok_iff.1 haccept

end

/-- A helper declaration is accepted exactly when every requirement is met: of its arguments, its
class, its name, its version, its tables and its routines.  It then makes a helper with its own
name, version, tables and steps.  Otherwise there is one diagnostic for each requirement that is
not met, in their order, but for the constructors of a class that is abstract; so each has its
diagnostic unless the class is abstract and cannot be made without arguments either. -/
theorem accepted_iff_requirements_met (p : Program) (registry : Registry) (runtime : RuntimeNames)
    (d : HelperDeclaration) (routines : List RoutineDeclaration) :
    let result := (d.accept p registry runtime routines).result
    let violated := d.violated p registry runtime routines
    ((∃ h, result = .ok h) ↔ violated = []) ∧
      (∀ h, result = .ok h →
        d.name.map (·.value) = some h.name ∧
          (h.version : Int) = (d.version.map (·.value)).getD 1 ∧
          List.Forall₂
            (fun entry t => ∃ id, entry.resolution = .found id ∧ registry.lookup id = some t)
            d.tables h.tables ∧
          ∃ steps, routines.map (·.accept runtime) = steps.map .ok ∧
            h.migration = .ofDeclared d.drops h.version steps) ∧
      ∀ ds, result = .error ds →
        List.Forall₂ (d.Reports p runtime) (violated.filter (!d.isMasked p ·)) ds ∧
          (List.Forall₂ (d.Reports p runtime) violated ds ↔
            ¬ ((p.classAt d.owner).isAbstract = true ∧ p.canMake d.owner = false)) := by
  intro result violated
  have hreports : List.Forall₂ (d.Reports p runtime) (violated.filter (!d.isMasked p ·))
      (d.diagnostics p registry runtime routines) := forall₂_reports_diagnostics
  refine ⟨?_, fun h hresult => made_of_result_accept hresult, fun ds hresult => ?_⟩
  · have hnil : d.diagnostics p registry runtime routines = [] ↔
        violated.filter (!d.isMasked p ·) = [] := by
      rw [← List.length_eq_zero_iff, ← List.length_eq_zero_iff, hreports.length_eq]
    exact exists_result_accept_iff.trans (hnil.trans filter_violated_eq_nil_iff)
  · obtain ⟨rfl, -⟩ := of_result_accept_error hresult
    refine ⟨hreports, fun hall => ?_, fun hnot => ?_⟩
    · -- as many requirements are not met as there are diagnostics, so none is masked
      have hlength : (violated.filter (!d.isMasked p ·)).length = violated.length :=
        hreports.length_eq.trans hall.length_eq.symm
      exact filter_violated_eq_self_iff.1 (List.filter_sublist.eq_of_length hlength)
    · have hself : violated.filter (!d.isMasked p ·) = violated :=
        filter_violated_eq_self_iff.2 hnot
      rwa [hself] at hreports

/-- A class that is abstract and demands an argument is complained about once. -/
theorem constructor_masked_of_abstract :
    let options : Source.Expr := .object default [("name", .string default "db")]
    let constructor : Source.Method :=
      ⟨"constructor", .constructor,
        [⟨"path", some ⟨"string", .primitive "string"⟩, false, none, default⟩],
        [], .unrestricted, false, false, false, none, false, false, true, default⟩
    let p := Program.ofSources ⟨"/src"⟩
      [⟨⟨"/src/db.ts"⟩, "", [],
        [⟨"Db", none, [⟨"Helper", none, [options], default⟩], [], [constructor], true, true,
          default⟩], []⟩]
    let registry := Registry.ofProgram p
    p.helpers.map (·.owner) = [0] ∧
      (p.classAt 0).isAbstract = true ∧ p.canMake 0 = false ∧
      p.helpers.map (fun d => (d.violated p registry {} []).length) = [2] ∧
      p.helpers.map (fun d => match (d.accept p registry {} []).result with
        | .ok _ => []
        | .error ds => ds.map (·.complaint)) = [[.abstractHelper "Db"]] := by
  decide +kernel

end DaoGen.HelperDeclaration
