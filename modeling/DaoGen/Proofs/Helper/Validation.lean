import DaoGen.Proofs.Helper.Renaming
set_option autoImplicit false

/-!
# Validation under other indices

When no generated class name is claimed twice, each helper declaration is checked on its
own, so a program that says the same in another order has the same helpers and the same
complaints.
-/

namespace DaoGen

open DaoGen.Schema DaoGen.HelperDeclaration

namespace Validation

variable {p : Program} {registry : Registry} {runtime : RuntimeNames}

/-! ## Claims -/

/-- The claims after a declaration: the first claim of a name stays. -/
def claim (p : Program) (claims : Claims) (d : HelperDeclaration) : Claims :=
  claimBy (p.classAt d.owner).name claims d

/-- The diagnostic of a declaration whose generated class name is claimed. -/
def duplicate? (p : Program) (claims : Claims) (d : HelperDeclaration) : Option Diagnostic :=
  duplicateBy? (p.classAt d.owner).name claims d

/-- The outcome of one declaration, given the claims made before it. -/
def outcomeOf (p : Program) (registry : Registry) (runtime : RuntimeNames) (claims : Claims)
    (d : HelperDeclaration) : Outcome :=
  match duplicate? p claims d with
  | some e => ⟨.error [e], []⟩
  | none => d.accept p registry runtime (routinesOf p d.owner)

theorem outcomes_cons (claims : Claims) (d : HelperDeclaration) (rest : List HelperDeclaration) :
    outcomes p registry runtime claims (d :: rest) =
      outcomeOf p registry runtime claims d ::
        outcomes p registry runtime (claim p claims d) rest := by
  unfold outcomeOf duplicate?
  show (match duplicateBy? (p.classAt d.owner).name claims d with
    | some e => _ | none => _) = _
  cases duplicateBy? (p.classAt d.owner).name claims d <;> rfl

/-- The class name that a helper declaration claims. -/
def claimedName (d : HelperDeclaration) : Option String := (claimOf d).map (·.value)

/-- What checking each helper declaration on its own gives. -/
def results (p : Program) (registry : Registry) (runtime : RuntimeNames) :
    List (Except (List Diagnostic) Helper) :=
  p.helpers.map fun d => (d.accept p registry runtime (routinesOf p d.owner)).result

/-- Declarations that claim different names, none of which is claimed already, are each
checked on their own. -/
theorem outcomes_eq_map {claims : Claims} {ds : List HelperDeclaration}
    (hnodup : (ds.filterMap claimedName).Nodup)
    (hfree : ∀ name ∈ ds.filterMap claimedName, claims.lookup name = none) :
    outcomes p registry runtime claims ds =
      ds.map fun d => d.accept p registry runtime (routinesOf p d.owner) := by
  induction ds generalizing claims with
  | nil => rfl
  | cons d rest ih =>
    rw [outcomes_cons, outcomeOf, List.map_cons]
    cases hclaim : claimOf d with
    | none =>
      have hname : claimedName d = none := by rw [claimedName, hclaim, Option.map_none]
      rw [List.filterMap_cons_none hname] at hnodup hfree
      rw [duplicate?, duplicateBy?, claim, claimBy, hclaim, ih hnodup hfree]
      rfl
    | some generated =>
      have hname : claimedName d = some generated.value := by
        rw [claimedName, hclaim, Option.map_some]
      rw [List.filterMap_cons_some hname] at hnodup hfree
      obtain ⟨hnew, hrest⟩ := List.nodup_cons.1 hnodup
      have hunclaimed : claims.lookup generated.value = none := hfree _ List.mem_cons_self
      have hfree' : ∀ name ∈ rest.filterMap claimedName,
          List.lookup name ((generated.value, (p.classAt d.owner).name) :: claims) = none := by
        intro name hmem
        have hne : (name == generated.value) = false := by
          rw [beq_eq_false_iff_ne]
          rintro rfl
          exact hnew hmem
        rw [List.lookup_cons, hne]
        exact hfree name (List.mem_cons_of_mem _ hmem)
      simp only [duplicate?, duplicateBy?, claim, claimBy, hclaim, Option.bind_some, hunclaimed,
        Option.map_none]
      rw [ih hrest hfree']

theorem map_result_outcomes (hnodup : (p.helpers.filterMap claimedName).Nodup) :
    (outcomes p registry runtime [] p.helpers).map (·.result) = results p registry runtime := by
  rw [outcomes_eq_map hnodup fun _ _ => rfl, List.map_map]
  rfl

/-- An accepted helper has the name that its declaration claims a class name with. -/
theorem claimedName_of_accept {d : HelperDeclaration} {routines : List RoutineDeclaration}
    {h : Helper} (hresult : (d.accept p registry runtime routines).result = .ok h) :
    claimedName d = some (Naming.helperClass h.name) := by
  obtain ⟨name, version, hname, -, rfl⟩ := exists_of_result_accept hresult
  rw [acceptName_def] at hname
  split at hname
  · cases hname
  · rename_i declared hdeclared
    split at hname
    · cases hname
    · rename_i hsanitized
      obtain rfl := Except.ok.inj hname
      simp only [claimedName, claimOf, hdeclared, Option.bind_some, if_neg hsanitized,
        Option.map_some, made]

/-- Two accepted helpers of the same sanitized name are one. -/
theorem eq_of_sanitized_eq (hnodup : (p.helpers.filterMap claimedName).Nodup) {a b : Helper}
    (ha : a ∈ values (results p registry runtime)) (hb : b ∈ values (results p registry runtime))
    (h : a.sanitized = b.sanitized) : a = b := by
  have hdeclared : ∀ c ∈ values (results p registry runtime), ∃ d ∈ p.helpers,
      (d.accept p registry runtime (routinesOf p d.owner)).result = .ok c := by
    intro c hc
    obtain ⟨d, hd, hresult⟩ := List.mem_map.1 (mem_values.1 hc)
    exact ⟨d, hd, hresult⟩
  obtain ⟨d, hd, hda⟩ := hdeclared a ha
  obtain ⟨e, he, heb⟩ := hdeclared b hb
  have hname : claimedName e = some (Naming.helperClass a.name) := by
    rw [claimedName_of_accept heb]
    exact congrArg (fun stem => some (stem ++ "DatabaseHelper")) h.symm
  obtain rfl := Reordering.eq_of_nodup_filterMap hnodup hd he (claimedName_of_accept hda) hname
  exact Except.ok.inj (hda.symm.trans heb)

/-! ## The order of helpers -/

theorem helperLe_trans (a b c : Helper) (hab : helperLe a b = true) (hbc : helperLe b c = true) :
    helperLe a c = true :=
  decide_eq_true (String.le_trans (of_decide_eq_true hab) (of_decide_eq_true hbc))

theorem helperLe_total (a b : Helper) : helperLe a b = true ∨ helperLe b a = true :=
  (String.le_total a.sanitized b.sanitized).imp decide_eq_true decide_eq_true

/-! ## Routines outside of helpers -/

/-- The complaints about routines outside of helpers, whatever their order. -/
theorem strays_perm (p : Program) :
    (strays p).Perm ((p.routines.filter (!isHelperClass p ·.owner)).map strayDiagnostic) := by
  obtain ⟨hascending, hmem⟩ := ascending_eraseReps (p.routines.map (·.owner))
  have howners : (routineOwners p).Nodup := hascending.imp Nat.ne_of_lt
  have hgroups := Reordering.flatMap_filter_perm (·.owner) p.routines
    (howners.filter (!isHelperClass p ·))
  have hmap := hgroups.map strayDiagnostic
  rw [List.map_flatMap] at hmap
  refine hmap.trans (List.Perm.of_eq (congrArg _ (List.filter_congr fun r hr => ?_)))
  have howner : r.owner ∈ routineOwners p := (hmem r.owner).2 (List.mem_map_of_mem hr)
  simp [List.mem_filter, howner]

end Validation

/-! ## Programs in another order -/

namespace Reorders

open Validation

variable {σ : FileId → FileId} {τ : ClassId → ClassId} {p q : Program}

theorem claimedNames_perm (h : Reorders σ τ p q) :
    (p.helpers.filterMap claimedName).Perm (q.helpers.filterMap claimedName) := by
  have hperm := h.helpers_perm.filterMap claimedName
  rw [List.filterMap_map] at hperm
  exact hperm

theorem isHelperClass (h : Reorders σ τ p q) (id : ClassId) :
    Validation.isHelperClass q (τ id) = Validation.isHelperClass p id := by
  unfold Validation.isHelperClass
  rw [← h.helpers_perm.any_eq, List.any_map]
  congr
  funext d
  simp [HelperDeclaration.rename, h.classes.injective.eq_iff]

theorem strays_perm (h : Reorders σ τ p q) : (strays p).Perm (strays q) := by
  refine (Validation.strays_perm p).trans (.trans ?_ (Validation.strays_perm q).symm)
  have hperm := (h.routines_perm.filter (!Validation.isHelperClass q ·.owner)).map strayDiagnostic
  rw [List.filter_map, List.map_map] at hperm
  refine (List.Perm.of_eq (congrArg _ (List.filter_congr fun r _ => ?_))).trans hperm
  exact congrArg _ (h.isHelperClass r.owner).symm

/-- The results are the same, one by one, in another order. -/
theorem results_same (h : Reorders σ τ p q) (runtime : RuntimeNames)
    (howner : ∀ d ∈ p.helpers, d.owner < p.classes.length) :
    ∃ others, List.Forall₂ (SameResult τ) (results p (Registry.ofProgram p) runtime) others ∧
      others.Perm (results q (Registry.ofProgram q) runtime) := by
  refine ⟨(p.helpers.map (·.rename τ)).map fun d =>
    (d.accept q (Registry.ofProgram q) runtime (routinesOf q d.owner)).result, ?_,
    h.helpers_perm.map _⟩
  rw [List.map_map, results, List.forall₂_map_left_iff, List.forall₂_map_right_iff,
    List.forall₂_same]
  intro d hd
  exact h.accept_same (howner d hd) (h.routinesOf_perm d.owner)

/-- Validation gives the same helpers in the same order, and the same complaints. -/
theorem ofProgram_same (h : Reorders σ τ p q) (runtime : RuntimeNames)
    (howner : ∀ d ∈ p.helpers, d.owner < p.classes.length)
    (hnodup : (p.helpers.filterMap claimedName).Nodup) :
    (Validation.ofProgram q (Registry.ofProgram q) runtime).helpers =
        (Validation.ofProgram p (Registry.ofProgram p) runtime).helpers.map (·.rename τ) ∧
      (Validation.ofProgram p (Registry.ofProgram p) runtime).diagnostics.Perm
        (Validation.ofProgram q (Registry.ofProgram q) runtime).diagnostics := by
  have hnodup' : (q.helpers.filterMap claimedName).Nodup := h.claimedNames_perm.nodup hnodup
  obtain ⟨others, hsame, hothers⟩ := h.results_same runtime howner
  obtain ⟨hvalues, herrors⟩ := SameResult.values_and_errors hsame
  refine ⟨?_, ?_⟩
  · have hperm : ((values (results p (Registry.ofProgram p) runtime)).map (·.rename τ)).Perm
        (values (results q (Registry.ofProgram q) runtime)) :=
      hvalues ▸ hothers.filterMap Except.toOption
    have hsort := sortBy_eq_of_perm helperLe_trans helperLe_total (fun a ha b hb hab hba => ?_) hperm
    · rw [Validation.ofProgram_def, Validation.ofProgram_def]
      dsimp only [ofOutcomes]
      rw [map_result_outcomes hnodup, map_result_outcomes hnodup', ← hsort]
      exact sortBy_map (fun _ _ => rfl) _
    · obtain ⟨a', ha', rfl⟩ := List.mem_map.1 ha
      obtain ⟨b', hb', rfl⟩ := List.mem_map.1 hb
      have heq : a'.sanitized = b'.sanitized :=
        String.le_antisymm (of_decide_eq_true hab) (of_decide_eq_true hba)
      rw [eq_of_sanitized_eq hnodup ha' hb' heq]
  · rw [Validation.ofProgram_def, Validation.ofProgram_def]
    dsimp only [ofOutcomes]
    rw [map_result_outcomes hnodup, map_result_outcomes hnodup']
    exact h.strays_perm.append (herrors.trans (hothers.filterMap error?).flatten)

end Reorders

end DaoGen
