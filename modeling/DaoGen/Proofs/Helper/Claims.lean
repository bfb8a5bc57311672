import DaoGen.Proofs.Helper.Validation
set_option autoImplicit false

/-!
# Claims on class names

Helper declarations are checked one after the other, and all that one of them leaves to
those after it is its claim on the class name that it generates.  So the outcome of a
declaration depends on the declarations before it through their claimed names only:

* what was claimed is what some declaration before generates (`lookup_foldl_claim_eq_none_iff`);
* an accepted helper has claimed its class name first (`claimed_of_mem_outcomes`).
-/

namespace DaoGen.Validation

open DaoGen.Schema DaoGen.HelperDeclaration

variable {p : Program} {registry : Registry} {runtime : RuntimeNames}

/-! ## One declaration after the other -/

/-- Declarations are checked with the claims of all those before them. -/
theorem outcomes_append (claims : Claims) (ds es : List HelperDeclaration) :
    outcomes p registry runtime claims (ds ++ es) =
      outcomes p registry runtime claims ds ++
        outcomes p registry runtime (ds.foldl (claim p) claims) es := by
  induction ds generalizing claims with
  | nil => rfl
  | cons d rest ih =>
    rw [List.cons_append, outcomes_cons, outcomes_cons, ih, List.foldl_cons, List.cons_append]

theorem length_outcomes (claims : Claims) (ds : List HelperDeclaration) :
    (outcomes p registry runtime claims ds).length = ds.length := by
  induction ds generalizing claims with
  | nil => rfl
  | cons d rest ih => rw [outcomes_cons, List.length_cons, ih, List.length_cons]

/-! ## What is claimed -/

theorem claim_of_claimedName_eq_none {claims : Claims} {d : HelperDeclaration}
    (h : claimedName d = none) : claim p claims d = claims := by
  have hclaim : claimOf d = none := Option.map_eq_none_iff.1 h
  rw [claim, claimBy, hclaim]

/-- A declaration claims the class name that it generates, and no other one. -/
theorem lookup_claim_eq_none_iff {claims : Claims} {d : HelperDeclaration} {name : String} :
    (claim p claims d).lookup name = none ↔
      claims.lookup name = none ∧ claimedName d ≠ some name := by
  cases hclaim : claimOf d with
  | none =>
    have hnone : claimedName d = none := by rw [claimedName, hclaim, Option.map_none]
    rw [claim_of_claimedName_eq_none hnone, hnone]
    simp
  | some generated =>
    have hname : claimedName d = some generated.value := by
      rw [claimedName, hclaim, Option.map_some]
    rw [claim, claimBy, hclaim, hname]
    dsimp only
    cases hlookup : claims.lookup generated.value with
    | some first =>
      constructor
      · intro hnone
        refine ⟨hnone, fun heq => ?_⟩
        rw [Option.some.inj heq, hnone] at hlookup
        cases hlookup
      · exact And.left
    | none =>
      by_cases heq : name = generated.value
      · simp [heq]
      · rw [List.lookup_cons, beq_false_of_ne heq]
        constructor
        · intro hnone
          exact ⟨hnone, fun h => heq (Option.some.inj h).symm⟩
        · exact And.left

/-- What some declarations leave claimed is what was claimed before and what they generate. -/
theorem lookup_foldl_claim_eq_none_iff {claims : Claims} {ds : List HelperDeclaration}
    {name : String} :
    (ds.foldl (claim p) claims).lookup name = none ↔
      claims.lookup name = none ∧ name ∉ ds.filterMap claimedName := by
  induction ds generalizing claims with
  | nil => simp
  | cons d rest ih =>
    rw [List.foldl_cons, ih, lookup_claim_eq_none_iff, and_assoc]
    refine and_congr_right fun _ => ?_
    rw [List.mem_filterMap, List.mem_filterMap, List.exists_mem_cons_iff, not_or]

/-! ## Outcomes and claims -/

/-- A declaration whose class name is not claimed is checked on its own. -/
theorem outcomeOf_of_unclaimed {claims : Claims} {d : HelperDeclaration}
    (h : ∀ name, claimedName d = some name → claims.lookup name = none) :
    outcomeOf p registry runtime claims d =
      d.accept p registry runtime (routinesOf p d.owner) := by
  have hnone : duplicate? p claims d = none := by
    rw [duplicate?, duplicateBy?]
    cases hclaim : claimOf d with
    | none => rfl
    | some generated =>
      have hname : claimedName d = some generated.value := by
        rw [claimedName, hclaim, Option.map_some]
      rw [Option.bind_some, h generated.value hname, Option.map_none]
  rw [outcomeOf, hnone]

/-- A declaration that makes a helper is the first to claim its class name. -/
theorem claimed_of_outcomeOf {claims : Claims} {d : HelperDeclaration} {h : Helper}
    (hresult : (outcomeOf p registry runtime claims d).result = .ok h) :
    (d.accept p registry runtime (routinesOf p d.owner)).result = .ok h ∧
      claims.lookup (Naming.helperClass h.name) = none := by
  rw [outcomeOf] at hresult
  split at hresult
  · cases hresult
  · rename_i hduplicate
    refine ⟨hresult, ?_⟩
    obtain ⟨generated, hclaim, hvalue⟩ :=
      Option.map_eq_some_iff.1 (claimedName_of_accept hresult)
    rw [duplicate?, duplicateBy?, hclaim, Option.bind_some, Option.map_eq_none_iff, hvalue]
      at hduplicate
    exact hduplicate

/-- Every outcome is that of a declaration, after some class names were claimed. -/
theorem exists_outcomeOf_of_mem_outcomes {claims : Claims} {ds : List HelperDeclaration}
    {outcome : HelperDeclaration.Outcome}
    (hmem : outcome ∈ outcomes p registry runtime claims ds) :
    ∃ claimed, ∃ d ∈ ds, outcome = outcomeOf p registry runtime claimed d := by
  induction ds generalizing claims with
  | nil => cases hmem
  | cons d rest ih =>
    rw [outcomes_cons] at hmem
    rcases List.mem_cons.1 hmem with rfl | hmem
    · exact ⟨claims, d, List.mem_cons_self, rfl⟩
    · obtain ⟨claimed, d', hd', heq⟩ := ih hmem
      exact ⟨claimed, d', List.mem_cons_of_mem d hd', heq⟩

/-- A helper that was made is what one of the declarations is accepted as. -/
theorem exists_declaration_of_mem_outcomes {claims : Claims} {ds : List HelperDeclaration}
    {h : Helper} (hmem : .ok h ∈ (outcomes p registry runtime claims ds).map (·.result)) :
    ∃ d ∈ ds, (d.accept p registry runtime (routinesOf p d.owner)).result = .ok h := by
  obtain ⟨outcome, houtcome, hresult⟩ := List.mem_map.1 hmem
  obtain ⟨claimed, d, hd, rfl⟩ := exists_outcomeOf_of_mem_outcomes houtcome
  exact ⟨d, hd, (claimed_of_outcomeOf hresult).1⟩

/-- An accepted helper has a class name that was free and that one of the declarations
generates. -/
theorem claimed_of_mem_outcomes {claims : Claims} {ds : List HelperDeclaration} {h : Helper}
    (hmem : .ok h ∈ (outcomes p registry runtime claims ds).map (·.result)) :
    claims.lookup (Naming.helperClass h.name) = none ∧
      Naming.helperClass h.name ∈ ds.filterMap claimedName := by
  induction ds generalizing claims with
  | nil => cases hmem
  | cons d rest ih =>
    rw [outcomes_cons, List.map_cons] at hmem
    rcases List.mem_cons.1 hmem with hresult | hmem
    · obtain ⟨haccept, hfree⟩ := claimed_of_outcomeOf hresult.symm
      exact ⟨hfree, List.mem_filterMap.2 ⟨d, List.mem_cons_self, claimedName_of_accept haccept⟩⟩
    · obtain ⟨hfree, hname⟩ := ih hmem
      obtain ⟨e, he, hclaimed⟩ := List.mem_filterMap.1 hname
      exact ⟨(lookup_claim_eq_none_iff.1 hfree).1,
        List.mem_filterMap.2 ⟨e, List.mem_cons_of_mem _ he, hclaimed⟩⟩

end DaoGen.Validation
