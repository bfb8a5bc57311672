import DaoGen.Helper.Validation
import DaoGen.Proofs.Helper.Acceptance
import DaoGen.Proofs.Schema.Renaming
import DaoGen.Proofs.Upgrade.Order
set_option autoImplicit false

/-!
# Checking a helper under other indices

A helper declaration is accepted under other indices when it is accepted, and makes the
same helper; otherwise the same complaints are made about it, the ones about its routines
perhaps in another order.
-/

namespace DaoGen

open DaoGen.Schema DaoGen.Upgrade DaoGen.HelperDeclaration

/-- A helper under other indices. -/
def Helper.rename (τ : ClassId → ClassId) (h : Helper) : Helper :=
  { h with tables := h.tables.map (·.rename τ), owner := τ h.owner }

/-- The same helper under other indices, or the same complaints in another order. -/
inductive SameResult (τ : ClassId → ClassId) :
    Except (List Diagnostic) Helper → Except (List Diagnostic) Helper → Prop
  | ok (h : Helper) : SameResult τ (.ok h) (.ok (h.rename τ))
  | error {ds ds' : List Diagnostic} (hperm : ds.Perm ds') : SameResult τ (.error ds) (.error ds')

/-- The helpers of the same results are the same, and so are all complaints. -/
theorem SameResult.values_and_errors {τ : ClassId → ClassId}
    {rs others : List (Except (List Diagnostic) Helper)}
    (h : List.Forall₂ (SameResult τ) rs others) :
    values others = (values rs).map (·.rename τ) ∧
      (errors rs).flatten.Perm (errors others).flatten := by
  induction h with
  | nil => exact ⟨rfl, .refl _⟩
  | cons hsame _ ih =>
    obtain ⟨hvalues, herrors⟩ := ih
    cases hsame with
    | ok helper => exact ⟨congrArg (_ :: ·) hvalues, herrors⟩
    | error hperm => exact ⟨hvalues, hperm.append herrors⟩

namespace Reorders

variable {σ : FileId → FileId} {τ : ClassId → ClassId} {p q : Program}

/-! ## The checks -/

theorem ownerDiagnostics (h : Reorders σ τ p q) (d : HelperDeclaration) :
    (d.rename τ).ownerDiagnostics q = d.ownerDiagnostics p := by
  rw [HelperDeclaration.ownerDiagnostics_def, HelperDeclaration.ownerDiagnostics_def]
  simp only [HelperDeclaration.rename, h.canMake, h.name_classAt,
    h.eq_of_inFile (·.isAbstract) (fun _ _ => rfl), h.eq_of_inFile (·.place) (fun _ _ => rfl)]

theorem acceptName (h : Reorders σ τ p q) (d : HelperDeclaration) :
    (d.rename τ).acceptName q = d.acceptName p := by
  rw [HelperDeclaration.acceptName_def, HelperDeclaration.acceptName_def]
  simp only [HelperDeclaration.rename, h.name_classAt]

theorem acceptTable (h : Reorders σ τ p q) (entry : TableEntry) :
    HelperDeclaration.acceptTable (Registry.ofProgram q) (entry.rename τ) =
      (HelperDeclaration.acceptTable (Registry.ofProgram p) entry).map (·.rename τ) := by
  unfold HelperDeclaration.acceptTable
  cases hresolution : entry.resolution with
  | found id =>
    simp only [TableEntry.rename, hresolution, Resolution.rename, h.lookup]
    cases (Registry.ofProgram p).lookup id <;> rfl
  | notFound => simp only [TableEntry.rename, hresolution, Resolution.rename]; rfl
  | ambiguous count => simp only [TableEntry.rename, hresolution, Resolution.rename]; rfl

/-- The routines of a class are the same, perhaps in another order. -/
theorem routinesOf_perm (h : Reorders σ τ p q) (id : ClassId) :
    ((Validation.routinesOf p id).map (·.rename τ)).Perm (Validation.routinesOf q (τ id)) := by
  have hperm := h.routines_perm.filter fun r => decide (r.owner = τ id)
  rw [List.filter_map] at hperm
  refine (List.Perm.of_eq (congrArg _ (List.filter_congr fun r _ => ?_))).trans hperm
  simp [RoutineDeclaration.rename, h.classes.injective.eq_iff]

/-! ## The helper -/

variable {runtime : RuntimeNames} {d : HelperDeclaration}
  {routines routines' : List RoutineDeclaration}

theorem map_acceptTable (h : Reorders σ τ p q) (d : HelperDeclaration) :
    (d.rename τ).tables.map (HelperDeclaration.acceptTable (Registry.ofProgram q)) =
      (d.tables.map (HelperDeclaration.acceptTable (Registry.ofProgram p))).map
        (Except.map (·.rename τ)) := by
  rw [List.map_map, HelperDeclaration.rename, List.map_map]
  exact List.map_congr_left fun entry _ => h.acceptTable entry

theorem map_accept_perm (hroutines : (routines.map (·.rename τ)).Perm routines') :
    (routines.map (·.accept runtime)).Perm (routines'.map (·.accept runtime)) := by
  have hperm := hroutines.map (·.accept runtime)
  rw [List.map_map] at hperm
  exact hperm

theorem diagnostics_perm (h : Reorders σ τ p q)
    (hroutines : (routines.map (·.rename τ)).Perm routines') :
    (d.diagnostics p (Registry.ofProgram p) runtime routines).Perm
      ((d.rename τ).diagnostics q (Registry.ofProgram q) runtime routines') := by
  rw [HelperDeclaration.diagnostics_def, HelperDeclaration.diagnostics_def, h.ownerDiagnostics,
    h.acceptName, h.map_acceptTable, errors_map]
  exact ((map_accept_perm hroutines).filterMap error?).append_left _

theorem made_rename (h : Reorders σ τ p q) (hd : d.owner < p.classes.length)
    (hroutines : (routines.map (·.rename τ)).Perm routines') (name : String) (version : Version) :
    (d.rename τ).made q (Registry.ofProgram q) runtime routines' name version =
      (d.made p (Registry.ofProgram p) runtime routines name version).rename τ := by
  have hsteps : (values (routines.map (·.accept runtime))).Perm
      (values (routines'.map (·.accept runtime))) :=
    (map_accept_perm hroutines).filterMap Except.toOption
  have hmigration : ∀ drops, Migration.ofDeclared drops version
      (values (routines'.map (·.accept runtime))) =
        Migration.ofDeclared drops version (values (routines.map (·.accept runtime))) := by
    intro drops
    rw [Migration.ofDeclared, Migration.ofDeclared, Plan.ofSteps_eq_of_perm hsteps]
  have howner : (d.rename τ).owner = τ d.owner := rfl
  simp only [made, h.map_acceptTable, values_map, hmigration, howner, h.homeOf hd, h.name_classAt]
  rfl

/-- A declaration gives the same helper or the same complaints. -/
theorem accept_same (h : Reorders σ τ p q) (hd : d.owner < p.classes.length)
    (hroutines : (routines.map (·.rename τ)).Perm routines') :
    SameResult τ (d.accept p (Registry.ofProgram p) runtime routines).result
      ((d.rename τ).accept q (Registry.ofProgram q) runtime routines').result := by
  have hproblems : (d.diagnostics p (Registry.ofProgram p) runtime routines).Perm
      ((d.rename τ).diagnostics q (Registry.ofProgram q) runtime routines') :=
    h.diagnostics_perm hroutines
  cases hname : d.acceptName p with
  | error e =>
    rw [result_accept_of_name_error hname,
      result_accept_of_name_error ((h.acceptName d).trans hname)]
    exact .error hproblems
  | ok name =>
    have hname' := (h.acceptName d).trans hname
    cases hversion : d.acceptVersion with
    | error e =>
      have hversion' : (d.rename τ).acceptVersion = .error e := hversion
      rw [result_accept_of_version_error hversion, result_accept_of_version_error hversion']
      exact .error hproblems
    | ok version =>
      have hversion' : (d.rename τ).acceptVersion = .ok version := hversion
      rw [result_accept_of_ok hname hversion, result_accept_of_ok hname' hversion',
        hproblems.isEmpty_eq, h.made_rename hd hroutines]
      split
      · exact .ok _
      · exact .error hproblems

end Reorders

end DaoGen
