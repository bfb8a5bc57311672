import DaoGen.Proofs.Helper.Claims
import DaoGen.Proofs.Helper.Refusals
import DaoGen.Proofs.Helper.Reports
set_option autoImplicit false

/-!
# Nothing that is declared is lost

Validation groups routines by class, leaves out declarations whose class name is claimed,
and sorts what it accepts.  Through all of this each declaration is settled once: a helper
declaration makes one helper, with a plan of all routines of its class, or is complained
about (`Settled`), and a routine on a class without helper declaration makes one complaint
of a kind that nothing else makes (`Complaint.isStray`).
-/

namespace DaoGen

open DaoGen.Schema DaoGen.Upgrade DaoGen.HelperDeclaration

/-! ## Complaints about strays -/

/-- Whether a complaint is about a routine on a class without helper declaration. -/
def Complaint.isStray : Complaint → Bool
  | upgradeOutsideHelper _ => true
  | _ => false

/-- A routine on a helper class is refused with other complaints. -/
theorem RoutineDeclaration.Refusal.isStray {runtime : RuntimeNames} {r : RoutineDeclaration}
    {e : Diagnostic} (h : r.Refusal runtime e) : e.complaint.isStray = false := by
  cases h <;> rfl

namespace HelperDeclaration

variable {p : Program} {registry : Registry} {runtime : RuntimeNames} {d : HelperDeclaration}
  {routines : List RoutineDeclaration}

/-- What is wrong with a helper declaration is no complaint about strays. -/
theorem isStray_of_mem_diagnostics {e : Diagnostic}
    (h : e ∈ d.diagnostics p registry runtime routines) : e.complaint.isStray = false := by
  obtain ⟨requirement, -, hreports⟩ := exists_reports_of_mem_diagnostics h
  cases hreports with
  | routine hrefused => exact (RoutineDeclaration.refusal_of_accept hrefused).isStray
  | _ => rfl

/-! ## Accepted and rejected declarations -/

/-- Outcomes without errors are their values. -/
theorem eq_map_values {ε α : Type} {outcomes : List (Except ε α)} (h : errors outcomes = []) :
    outcomes = (values outcomes).map .ok := by
  induction outcomes with
  | nil => rfl
  | cons outcome rest ih =>
    cases outcome with
    | ok a => exact congrArg (.ok a :: ·) (ih h)
    | error e => cases h

theorem length_values_add_length_errors {ε α : Type} (outcomes : List (Except ε α)) :
    (values outcomes).length + (errors outcomes).length = outcomes.length := by
  induction outcomes with
  | nil => rfl
  | cons outcome rest ih =>
    cases outcome with
    | ok a =>
      show (values rest).length + 1 + (errors rest).length = rest.length + 1
      omega
    | error e =>
      show (values rest).length + ((errors rest).length + 1) = rest.length + 1
      omega

/-- A declaration is rejected with everything that is wrong with it, and something is. -/
theorem of_result_accept_error {ds : List Diagnostic}
    (h : (d.accept p registry runtime routines).result = .error ds) :
    ds = d.diagnostics p registry runtime routines ∧ ds ≠ [] := by
  cases hname : d.acceptName p with
  | error e =>
    rw [result_accept_of_name_error hname] at h
    obtain rfl := Except.error.inj h
    refine ⟨rfl, List.ne_nil_of_mem (a := e) ?_⟩
    simp [diagnostics_def, hname, error?]
  | ok name =>
    cases hversion : d.acceptVersion with
    | error e =>
      rw [result_accept_of_version_error hversion] at h
      obtain rfl := Except.error.inj h
      refine ⟨rfl, List.ne_nil_of_mem (a := e) ?_⟩
      simp [diagnostics_def, hversion, error?]
    | ok version =>
      rw [result_accept_of_ok hname hversion] at h
      split at h
      · cases h
      · rename_i hne
        obtain rfl := Except.error.inj h
        exact ⟨rfl, fun heq => hne (by rw [heq]; rfl)⟩

/-- Nothing is wrong with a declaration that makes a helper. -/
theorem diagnostics_eq_nil_of_result_accept {h : Helper}
    (hresult : (d.accept p registry runtime routines).result = .ok h) :
    d.diagnostics p registry runtime routines = [] := by
  obtain ⟨name, version, hname, hversion, -⟩ := exists_of_result_accept hresult
  rw [result_accept_of_ok hname hversion] at hresult
  split at hresult
  · rename_i hempty
    exact List.isEmpty_iff.1 hempty
  · cases hresult

theorem name_of_acceptName {name : String} (h : d.acceptName p = .ok name) :
    d.name.map (·.value) = some name := by
  rw [acceptName_def] at h
  split at h
  · cases h
  · rename_i declared hdeclared
    split at h
    · cases h
    · rw [hdeclared, Option.map_some, Except.ok.inj h]

end HelperDeclaration

/-! ## Settled declarations -/

namespace Validation

/-- What a helper declaration comes to: a helper of its own or complaints of its own. -/
inductive Settled (p : Program) (registry : Registry) (runtime : RuntimeNames)
    (d : HelperDeclaration) : Except (List Diagnostic) Helper → Prop
  /-- a helper, whose plan has a step for each routine of the class -/
  | accepted (h : Helper) (name : d.name.map (·.value) = some h.name)
      (owner : h.owner = d.owner) (place : h.place = d.place) (drops : h.drops = d.drops)
      (plan : h.drops = false → ∃ plan, h.migration = .upgrade plan ∧
        (plan.steps.map .ok).Perm ((routinesOf p d.owner).map (·.accept runtime))) :
      Settled p registry runtime d (.ok h)
  /-- everything that is wrong with it -/
  | rejected (wrong : d.diagnostics p registry runtime (routinesOf p d.owner) ≠ []) :
      Settled p registry runtime d
        (.error (d.diagnostics p registry runtime (routinesOf p d.owner)))
  /-- the complaint that its class name is claimed -/
  | duplicate (generated : Located String) (first : String)
      (claims : claimOf d = some generated) :
      Settled p registry runtime d (.error
        [⟨.duplicateHelper (p.classAt d.owner).name first generated.value, generated.place⟩])

variable {p : Program} {registry : Registry} {runtime : RuntimeNames}

/-- The plan of an accepted helper has a step for each routine of its class. -/
theorem settled_of_accept {d : HelperDeclaration} {h : Helper}
    (hresult : (d.accept p registry runtime (routinesOf p d.owner)).result = .ok h) :
    Settled p registry runtime d (.ok h) := by
  have hnil := diagnostics_eq_nil_of_result_accept hresult
  obtain ⟨name, version, hname, -, rfl⟩ := exists_of_result_accept hresult
  refine .accepted _ (name_of_acceptName hname) rfl rfl rfl fun hdrops => ?_
  have herrors : errors ((routinesOf p d.owner).map (·.accept runtime)) = [] :=
    (List.append_eq_nil_iff.1 hnil).2
  refine ⟨_, if_neg (ne_true_of_eq_false hdrops), ?_⟩
  have hsteps : (Plan.ofSteps version
      (values ((routinesOf p d.owner).map (·.accept runtime)))).steps.Perm
        (values ((routinesOf p d.owner).map (·.accept runtime))) :=
    sortBy_perm Step.le _
  refine (hsteps.map Except.ok).trans (.of_eq ?_)
  exact (eq_map_values herrors).symm

theorem settled_outcomeOf (claims : Claims) (d : HelperDeclaration) :
    Settled p registry runtime d (outcomeOf p registry runtime claims d).result := by
  unfold outcomeOf
  split
  · rename_i e hduplicate
    obtain ⟨generated, hclaim, hfirst⟩ := Option.bind_eq_some_iff.1 hduplicate
    obtain ⟨first, -, rfl⟩ := Option.map_eq_some_iff.1 hfirst
    exact .duplicate generated first hclaim
  · cases hresult : (d.accept p registry runtime (routinesOf p d.owner)).result with
    | ok h => exact settled_of_accept hresult
    | error ds =>
      obtain ⟨rfl, hne⟩ := of_result_accept_error hresult
      exact .rejected hne

/-- Each declaration is settled, whatever was claimed before. -/
theorem settled_outcomes (claims : Claims) (ds : List HelperDeclaration) :
    List.Forall₂ (Settled p registry runtime) ds
      ((outcomes p registry runtime claims ds).map (·.result)) := by
  induction ds generalizing claims with
  | nil => exact .nil
  | cons d rest ih =>
    rw [outcomes_cons]
    exact .cons (settled_outcomeOf claims d) (ih _)

/-- A rejected declaration is complained about, and not as a stray. -/
theorem Settled.of_error {d : HelperDeclaration} {ds : List Diagnostic}
    (h : Settled p registry runtime d (.error ds)) :
    ds ≠ [] ∧ ∀ e ∈ ds, e.complaint.isStray = false := by
  cases h with
  | rejected wrong => exact ⟨wrong, fun e he => isStray_of_mem_diagnostics he⟩
  | duplicate generated first claims =>
    refine ⟨List.cons_ne_nil _ _, fun e he => ?_⟩
    obtain rfl := List.mem_singleton.1 he
    rfl

theorem of_mem_errors {ds : List HelperDeclaration}
    {results : List (Except (List Diagnostic) Helper)}
    (h : List.Forall₂ (Settled p registry runtime) ds results) :
    ∀ es ∈ errors results, es ≠ [] ∧ ∀ e ∈ es, e.complaint.isStray = false := by
  induction h with
  | nil => intro es hes; cases hes
  | @cons d result ds results hsettled _ ih =>
    intro es hes
    cases result with
    | ok helper => exact ih es hes
    | error es' =>
      rcases List.mem_cons.1 hes with rfl | hes
      · exact hsettled.of_error
      · exact ih es hes

/-- Each helper declaration makes one helper, with a plan of all routines of its class, or
is complained about; each routine on a class without helper declaration makes one
complaint of its kind, and nothing else makes any.  So there are as many helpers as helper
declarations when there is no complaint. -/
theorem declarations_settled (p : Program) (registry : Registry) (runtime : RuntimeNames) :
    let v := ofProgram p registry runtime
    let strayRoutines := p.routines.filter (!isHelperClass p ·.owner)
    (∃ results, List.Forall₂ (Settled p registry runtime) p.helpers results ∧
      v.helpers.Perm (values results) ∧
      v.diagnostics.Perm (strayRoutines.map strayDiagnostic ++ (errors results).flatten)) ∧
    (v.diagnostics.filter (·.complaint.isStray)).Perm (strayRoutines.map strayDiagnostic) ∧
    (v.diagnostics = [] → v.helpers.length = p.helpers.length) := by
  intro v strayRoutines
  have hsettled : List.Forall₂ (Settled p registry runtime) p.helpers
      ((outcomes p registry runtime [] p.helpers).map (·.result)) := settled_outcomes [] p.helpers
  generalize hresults : (outcomes p registry runtime [] p.helpers).map (·.result) = results
    at hsettled
  have hhelpers : v.helpers.Perm (values results) := by
    rw [← hresults]
    exact sortBy_perm helperLe _
  have hdiagnostics : v.diagnostics.Perm
      (strayRoutines.map strayDiagnostic ++ (errors results).flatten) := by
    rw [← hresults]
    exact (strays_perm p).append_right _
  have herrors := of_mem_errors hsettled
  refine ⟨⟨results, hsettled, hhelpers, hdiagnostics⟩, ?_, fun hnone => ?_⟩
  · have hstrays : (strayRoutines.map strayDiagnostic).filter (·.complaint.isStray) =
        strayRoutines.map strayDiagnostic := by
      refine List.filter_eq_self.2 fun e he => ?_
      obtain ⟨r, -, rfl⟩ := List.mem_map.1 he
      rfl
    have hothers : (errors results).flatten.filter (·.complaint.isStray) = [] := by
      refine List.filter_eq_nil_iff.2 fun e he => ?_
      obtain ⟨es, hes, hmem⟩ := List.mem_flatten.1 he
      exact ne_true_of_eq_false ((herrors es hes).2 e hmem)
    have hfilter := hdiagnostics.filter (·.complaint.isStray)
    rw [List.filter_append, hstrays, hothers, List.append_nil] at hfilter
    exact hfilter
  · rw [hnone] at hdiagnostics
    have hflatten := (List.append_eq_nil_iff.1 (List.nil_perm.1 hdiagnostics)).2
    have hnil : errors results = [] := by
      refine List.eq_nil_iff_forall_not_mem.2 fun es hes => ?_
      exact (herrors es hes).1 (List.flatten_eq_nil_iff.1 hflatten es hes)
    have hlength := length_values_add_length_errors results
    rw [hnil, List.length_nil, Nat.add_zero] at hlength
    rw [hhelpers.length_eq, hlength, hsettled.length_eq]

end Validation

end DaoGen
