import DaoGen.Proofs.Program.Renaming
import DaoGen.Proofs.Schema.Answers
set_option autoImplicit false

/-!
# The registry under other indices

The chain of a class leads through the same classes under other indices, so it finds the
same id type, and the registry holds the same tables.
-/

namespace DaoGen

open DaoGen.Schema

/-- A found id type under other indices. -/
def Schema.Found.rename (τ : ClassId → ClassId) (f : Found) : Found :=
  { f with declaredOn := τ f.declaredOn }

/-- A table under other indices. -/
def Schema.Table.rename (τ : ClassId → ClassId) (t : Table) : Table :=
  { t with id := τ t.id, declaredOn := τ t.declaredOn }

/-! ## Id types -/

/-- Only a scanned class has an id type. -/
theorem Schema.FoundAt.lt {p : Program} {n : Nat} {id : ClassId} {found : Found}
    (h : FoundAt p n id found) : id < p.classes.length := by
  cases h with
  | here hown =>
    by_contra hid
    have hclass : p.classAt id = default := by
      simp [Program.classAt, List.getElem?_eq_none (Nat.le_of_not_lt hid)]
    rw [ownIdType_def, hclass] at hown
    cases hown
  | up _ hparent _ => exact Program.lt_of_parentOf_eq_some hparent

namespace Renames

variable {σ : FileId → FileId} {τ : ClassId → ClassId} {p q : Program}

theorem ownIdType (h : Renames σ τ p q) (id : ClassId) :
    Schema.ownIdType q (τ id) = (Schema.ownIdType p id).map (·.rename τ) := by
  by_cases hid : id < p.classes.length
  · rw [Schema.ownIdType_def, Schema.ownIdType_def, h.classAt hid, Option.map_map]
    simp only [ScannedClass.inFile, h.fileAt]
    rfl
  · have hclass := h.classAt_of_le (Nat.le_of_not_lt hid)
    have hdefault : p.classAt id = default := by
      simp [Program.classAt, List.getElem?_eq_none (Nat.le_of_not_lt hid)]
    rw [Schema.ownIdType_def, Schema.ownIdType_def, hclass, hdefault]
    rfl

/-- A class has the id type that it has under its other index. -/
theorem idTypeOf (h : Renames σ τ p q) (id : ClassId) :
    Schema.idTypeOf q (τ id) = (Schema.idTypeOf p id).map (·.rename τ) := by
  have hown : Schema.ownIdType q ∘ τ = Option.map (·.rename τ) ∘ Schema.ownIdType p :=
    funext h.ownIdType
  rw [Schema.idTypeOf, Schema.idTypeOf, h.ancestry, List.findSome?_map, hown, List.map_findSome?]

/-! ## Tables -/

theorem homeOf (h : Renames σ τ p q) {id : ClassId} (hid : id < p.classes.length) :
    q.homeOf (τ id) = p.homeOf id := by
  rw [Program.homeOf_def, Program.fileOf, h.classAt hid]
  exact congrArg (fun f => ModuleName.file (ScannedFile.stem f)) (h.fileAt _)

/-- A class makes the same table under its other index. -/
theorem table? (h : Renames σ τ p q) (id : ClassId) :
    Registry.table? q (τ id) = (Registry.table? p id).map (·.rename τ) := by
  rw [Registry.table?, Registry.table?, h.idTypeOf]
  cases hfound : Schema.idTypeOf p id with
  | none => rfl
  | some found =>
    obtain ⟨n, hn⟩ := idTypeOf_eq_some_iff.1 hfound
    simp only [Option.map_some, Registry.tableOf_def, h.homeOf hn.lt, h.name_classAt]
    rfl

end Renames

namespace Reorders

variable {σ : FileId → FileId} {τ : ClassId → ClassId} {p q : Program}

/-- The registry holds the same tables under other indices. -/
theorem lookup (h : Reorders σ τ p q) (id : ClassId) :
    (Registry.ofProgram q).lookup (τ id) =
      ((Registry.ofProgram p).lookup id).map (·.rename τ) := by
  have hmem : τ id ∈ q.tables ↔ id ∈ p.tables := by
    rw [← h.tables_perm.mem_iff, List.mem_map_of_injective h.classes.injective]
  rw [Registry.lookup_ofProgram, Registry.lookup_ofProgram, h.toRenames.table?]
  simp only [hmem]
  split <;> rfl

end Reorders

end DaoGen
