import DaoGen.Upgrade.Plan
set_option autoImplicit false

/-!
# The order of steps

`Step.le` is a total order that ties on equal steps only.  A plan therefore depends on
the steps it is made of and not on the order in which they are given, and along a plan
the targets ascend, an open origin coming before every exact one of the same target.
-/

namespace DaoGen.Upgrade

namespace Origin

theorem le_total (a b : Origin) : a.le b = true ∨ b.le a = true := by
  cases a <;> cases b <;> simp [le]
  lia

theorem le_trans {a b c : Origin} (hab : a.le b = true) (hbc : b.le c = true) :
    a.le c = true := by
  cases a <;> cases b <;> cases c <;> simp [le] at *
  lia

theorem le_antisymm {a b : Origin} (hab : a.le b = true) (hba : b.le a = true) : a = b := by
  cases a <;> cases b <;> simp [le] at *
  lia

end Origin

namespace Step

/-- The order of steps read as a lexicographic one. -/
theorem le_iff {a b : Step} :
    a.le b = true ↔
      a.target < b.target ∨
        (a.target = b.target ∧
          ((a.origin ≠ b.origin ∧ a.origin.le b.origin = true) ∨
            (a.origin = b.origin ∧ a.routine ≤ b.routine))) := by
  unfold le
  split
  · rename_i ht
    split
    · rename_i ho
      simp [ht, ho]
    · rename_i ho
      simp [ht, ho]
  · rename_i ht
    simp only [ht, false_and, or_false, decide_eq_true_eq]
    lia

theorem le_total (a b : Step) : a.le b = true ∨ b.le a = true := by
  rw [le_iff, le_iff]
  rcases Nat.lt_trichotomy a.target b.target with ht | ht | ht
  · exact .inl (.inl ht)
  · by_cases ho : a.origin = b.origin
    · rcases String.le_total a.routine b.routine with hr | hr
      · exact .inl (.inr ⟨ht, .inr ⟨ho, hr⟩⟩)
      · exact .inr (.inr ⟨ht.symm, .inr ⟨ho.symm, hr⟩⟩)
    · rcases Origin.le_total a.origin b.origin with hle | hle
      · exact .inl (.inr ⟨ht, .inl ⟨ho, hle⟩⟩)
      · exact .inr (.inr ⟨ht.symm, .inl ⟨Ne.symm ho, hle⟩⟩)
  · exact .inr (.inl ht)

theorem le_trans (a b c : Step) (hab : a.le b = true) (hbc : b.le c = true) :
    a.le c = true := by
  rw [le_iff] at *
  rcases hab with hab | ⟨htab, hab⟩
  · rcases hbc with hbc | ⟨htbc, -⟩
    · exact .inl (Nat.lt_trans hab hbc)
    · exact .inl (htbc ▸ hab)
  · rcases hbc with hbc | ⟨htbc, hbc⟩
    · exact .inl (htab ▸ hbc)
    · refine .inr ⟨htab.trans htbc, ?_⟩
      rcases hab with ⟨hne, hab⟩ | ⟨heq, hab⟩
      · rcases hbc with ⟨-, hbc⟩ | ⟨heq', -⟩
        · -- Two strict steps of the order never lead back to where they started.
          refine .inl ⟨fun hac => hne (Origin.le_antisymm hab (hac ▸ hbc)), ?_⟩
          exact Origin.le_trans hab hbc
        · exact .inl ⟨heq' ▸ hne, heq' ▸ hab⟩
      · rcases hbc with ⟨hne', hbc⟩ | ⟨heq', hbc⟩
        · exact .inl ⟨heq ▸ hne', heq ▸ hbc⟩
        · exact .inr ⟨heq.trans heq', String.le_trans hab hbc⟩

theorem le_antisymm {a b : Step} (hab : a.le b = true) (hba : b.le a = true) : a = b := by
  rw [le_iff] at *
  have ht : a.target = b.target := by
    rcases hab with hab | ⟨hab, -⟩
    · rcases hba with hba | ⟨hba, -⟩
      · exact absurd hab (Nat.lt_asymm hba)
      · exact hba.symm
    · exact hab
  simp only [ht, Nat.lt_irrefl, false_or, true_and] at hab hba
  have ho : a.origin = b.origin := by
    rcases hab with ⟨hne, hab⟩ | ⟨heq, -⟩
    · rcases hba with ⟨-, hba⟩ | ⟨heq, -⟩
      · exact absurd (Origin.le_antisymm hab hba) hne
      · exact heq.symm
    · exact heq
  simp only [ho, ne_eq, not_true_eq_false, false_and, true_and, false_or] at hab hba
  have hr : a.routine = b.routine := String.le_antisymm hab hba
  obtain ⟨⟨_, _⟩, _⟩ := a
  obtain ⟨⟨_, _⟩, _⟩ := b
  simp_all

theorem target_le_of_le {a b : Step} (h : a.le b = true) : a.target ≤ b.target := by
  rcases le_iff.1 h with h | ⟨h, -⟩
  · exact Nat.le_of_lt h
  · exact Nat.le_of_eq h

/-- A step with an open origin that comes after one with an exact origin has a greater
target. -/
theorem target_lt_of_le {a b : Step} {f : Version} (h : a.le b = true)
    (ha : a.origin = .exact f) (hb : b.origin = .unset) : a.target < b.target := by
  rcases le_iff.1 h with h | ⟨-, h⟩
  · exact h
  · simp [ha, hb, Origin.le] at h

end Step

namespace Plan

variable {target : Version} {steps : List Step}

theorem mem_ofSteps {step : Step} : step ∈ (ofSteps target steps).steps ↔ step ∈ steps :=
  mem_sortBy Step.le

theorem pairwise_ofSteps :
    (ofSteps target steps).steps.Pairwise fun a b => a.le b = true :=
  pairwise_sortBy Step.le_trans Step.le_total steps

/-- A plan does not depend on the order in which its steps are given. -/
theorem ofSteps_eq_of_perm {other : List Step} (h : steps.Perm other) :
    ofSteps target steps = ofSteps target other := by
  unfold ofSteps
  rw [sortBy_eq_of_perm Step.le_trans Step.le_total (fun _ _ _ _ => Step.le_antisymm) h]

end Plan

end DaoGen.Upgrade
