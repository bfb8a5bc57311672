import DaoGen.Program.Resolution
set_option autoImplicit false

/-!
# Chains of parents

The chain of a class goes from the class to its parent, to the parent's parent and so
on.  It ends at a class without a parent, or in front of a class that it has met before.
-/

namespace DaoGen

/-- How many classes a chain has not met yet. -/
def Lookup.unmet {m : Type → Type} (look : Lookup m) (met : List ClassId) : Nat :=
  ((List.range look.count).filter (! met.contains ·)).length

/-- A class that is met for the first time leaves fewer to be met. -/
theorem Lookup.unmet_cons_lt {m : Type → Type} {look : Lookup m} {id : ClassId}
    {met : List ClassId} (hlt : id < look.count) (hid : ¬ met.contains id = true) :
    look.unmet (id :: met) < look.unmet met := by
  have hmem : id ∈ (List.range look.count).filter (! met.contains ·) := by
    simp_all
  have hsub : (List.range look.count).filter (! (id :: met).contains ·) =
      ((List.range look.count).filter (! met.contains ·)).filter (· ≠ id) := by
    rw [List.filter_filter]
    congr
    funext other
    simp [eq_comm]
  rw [unmet, unmet, hsub]
  exact List.length_filter_lt_length_iff_exists.2 ⟨id, hmem, by simp⟩

namespace Program

/-- Only a scanned class has a parent. -/
theorem lt_of_parentOf_eq_some {p : Program} {id parent : ClassId}
    (h : p.parentOf id = some parent) : id < p.classes.length := by
  cases hid : p.classes[id]? with
  | none =>
    have hclass : p.classAt id = default := by simp [classAt, hid]
    have hnone : (default : ScannedClass).parent = none := rfl
    rw [parentOf_def, hclass, hnone] at h
    cases h
  | some c => exact (List.getElem?_eq_some_iff.1 hid).1

theorem unmet_lt {p : Program} {id parent : ClassId} {met : List ClassId}
    (hparent : p.parentOf id = some parent) (hid : ¬ met.contains id = true) :
    p.lookup.unmet (id :: met) < p.lookup.unmet met :=
  Lookup.unmet_cons_lt (lt_of_parentOf_eq_some hparent) hid

/-- The chain of a class after some others. -/
def ancestryAfter (p : Program) (met : List ClassId) (id : ClassId) : List ClassId :=
  if _ : met.contains id then []
  else
    match _ : p.parentOf id with
    | some parent => id :: ancestryAfter p (id :: met) parent
    | none => [id]
termination_by p.lookup.unmet met
decreasing_by exact unmet_lt ‹_› ‹_›

theorem ancestryAfter_of_met {p : Program} {met : List ClassId} {id : ClassId}
    (h : met.contains id = true) : p.ancestryAfter met id = [] := by
  rw [ancestryAfter, dif_pos h]

theorem ancestryAfter_of_parent {p : Program} {met : List ClassId} {id parent : ClassId}
    (h : ¬ met.contains id = true) (hparent : p.parentOf id = some parent) :
    p.ancestryAfter met id = id :: p.ancestryAfter (id :: met) parent := by
  rw [ancestryAfter, dif_neg h]
  split
  · rename_i other hother
    obtain rfl := Option.some.inj (hparent.symm.trans hother)
    rfl
  · rename_i hnone
    exact absurd (hparent.symm.trans hnone) (by simp)

theorem ancestryAfter_of_root {p : Program} {met : List ClassId} {id : ClassId}
    (h : ¬ met.contains id = true) (hparent : p.parentOf id = none) :
    p.ancestryAfter met id = [id] := by
  rw [ancestryAfter, dif_neg h]
  split
  · rename_i other hother
    exact absurd (hparent.symm.trans hother) (by simp)
  · rfl

/-- The chain of a class. -/
def ancestry (p : Program) (id : ClassId) : List ClassId := p.ancestryAfter [] id

end Program

end DaoGen
