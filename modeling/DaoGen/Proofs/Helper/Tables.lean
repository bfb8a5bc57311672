import DaoGen.Proofs.Helper.Accounting
import DaoGen.Proofs.Schema.Answers
set_option autoImplicit false

/-!
# The tables of a helper

A helper is accepted with one table for each entry of its declaration's list, in the order of
the list: the table that the registry has of the class which the entry was found to stand for
(`represents_of_accept`).  Every helper of a program is made in this way by one of its
declarations (`exists_declaration_of_mem_helpers`).
-/

namespace DaoGen

open DaoGen.Schema DaoGen.HelperDeclaration

/-- A table is what an entry of a list of tables stands for in a program. -/
structure Schema.Table.Represents (p : Program) (entry : TableEntry) (t : Table) : Prop where
  found : entry.resolution = .found t.id
  declared : t.id ∈ p.tables
  name : t.name = (p.classAt t.id).name
  home : t.home = p.homeOf t.id
  idType : idTypeOf p t.id = some ⟨t.declaredOn, t.idType⟩

namespace HelperDeclaration

variable {p : Program} {registry : Registry} {runtime : RuntimeNames} {d : HelperDeclaration}
  {routines : List RoutineDeclaration} {h : Helper}

/-- An entry is accepted as the table that the registry has of the class it was found for. -/
theorem acceptTable_eq_ok_iff {entry : TableEntry} {t : Table} :
    acceptTable registry entry = .ok t ↔
      ∃ id, entry.resolution = .found id ∧ registry.lookup id = some t := by
  unfold acceptTable
  cases entry.resolution with
  | found id => cases hlookup : registry.lookup id <;> simp [hlookup]
  | notFound => simp
  | ambiguous count => simp

/-- An accepted entry stands for the table that it was accepted as. -/
theorem represents_of_acceptTable {entry : TableEntry} {t : Table}
    (haccept : acceptTable (Registry.ofProgram p) entry = .ok t) : t.Represents p entry := by
  obtain ⟨id, hfound, hlookup⟩ := acceptTable_eq_ok_iff.1 haccept
  rw [Registry.lookup_ofProgram] at hlookup
  split at hlookup
  · rename_i hdeclared
    obtain rfl := Registry.id_of_table? hlookup
    obtain ⟨made, hmade, heq⟩ := Option.map_eq_some_iff.1 hlookup
    refine ⟨hfound, hdeclared, ?_, ?_, ?_⟩
    · exact (congrArg Table.name heq).symm
    · exact (congrArg Table.home heq).symm
    · rw [hmade, ← heq]
      rfl
  · cases hlookup

/-- Every entry of an accepted declaration is accepted. -/
theorem map_acceptTable_of_accept
    (hresult : (d.accept p registry runtime routines).result = .ok h) :
    d.tables.map (acceptTable registry) = h.tables.map .ok := by
  have hnil := diagnostics_eq_nil_of_result_accept hresult
  obtain ⟨name, version, -, -, rfl⟩ := exists_of_result_accept hresult
  have herrors : errors (d.tables.map (acceptTable registry)) = [] :=
    (List.append_eq_nil_iff.1 (List.append_eq_nil_iff.1 hnil).1).2
  exact eq_map_values herrors

/-- Every table of an accepted helper is what an entry is accepted as. -/
theorem exists_entry_of_mem_tables
    (hresult : (d.accept p registry runtime routines).result = .ok h) {t : Table}
    (ht : t ∈ h.tables) : ∃ entry ∈ d.tables, acceptTable registry entry = .ok t := by
  have haccepted : Except.ok t ∈ d.tables.map (acceptTable registry) := by
    rw [map_acceptTable_of_accept hresult]
    exact List.mem_map_of_mem ht
  exact List.mem_map.1 haccepted

/-- The tables of an accepted helper are what the entries are accepted as, one by one. -/
theorem forall₂_acceptTable_of_accept
    (hresult : (d.accept p registry runtime routines).result = .ok h) :
    List.Forall₂ (fun entry t => acceptTable registry entry = .ok t) d.tables h.tables := by
  have heq : List.Forall₂ (· = ·) (d.tables.map (acceptTable registry)) (h.tables.map .ok) := by
    rw [List.forall₂_eq_eq_eq]
    exact map_acceptTable_of_accept hresult
  exact List.forall₂_map_right_iff.1 (List.forall₂_map_left_iff.1 heq)

/-- An accepted helper has a table for each entry, in the order of the entries. -/
theorem represents_of_accept
    (hresult : (d.accept p (Registry.ofProgram p) runtime routines).result = .ok h) :
    List.Forall₂ (fun entry t => t.Represents p entry) d.tables h.tables := by
  exact (forall₂_acceptTable_of_accept hresult).imp fun _ _ => represents_of_acceptTable

end HelperDeclaration

namespace Validation

variable {p : Program} {registry : Registry} {runtime : RuntimeNames} {h : Helper}

/-- Every helper of a program is what one of its declarations is accepted as. -/
theorem exists_declaration_of_mem_helpers
    (hmem : h ∈ (ofProgram p registry runtime).helpers) :
    ∃ d ∈ p.helpers, (d.accept p registry runtime (routinesOf p d.owner)).result = .ok h := by
  have hvalue := (mem_sortBy helperLe).1 hmem
  exact exists_declaration_of_mem_outcomes (mem_values.1 hvalue)

end Validation

end DaoGen
