import DaoGen.Emit.HelperModule
import DaoGen.Helper.Validation
import DaoGen.Program.OfSources
import DaoGen.Proofs.Reordering
import Mathlib.Data.Prod.Lex
import Mathlib.Data.String.Basic
set_option autoImplicit false

/-!
# The names that a generated module binds

At its top level a module binds the local names of its import clauses and the name of its class.
An import block holds each clause once, so a name is bound twice just when two different clauses
share it or a clause has the name of the class (`ModuleCode.nodup_boundNames_iff`).

A helper's module imports names of the runtime, the classes of its tables, what their id types
ask for, the class with the upgrade routines and the config writer.  None of these is checked
against the others when a helper is accepted; `Apart` says what they have to satisfy, and a
helper's module binds no name twice exactly when they do (`boundNames_nodup_iff`).  Tables whose
classes have one name and come from different modules do not.
-/

namespace DaoGen

/-! ## The order of clauses -/

namespace ImportClause

/-- What clauses are ordered by. -/
def key (c : ImportClause) : String ×ₗ String ×ₗ String :=
  toLex (c.specifier, toLex (c.exported, c.localName))

theorem key_injective : Function.Injective key := by
  intro a b h
  cases a
  cases b
  simpa [key] using h

theorem le_iff {a b : ImportClause} : a.le b = true ↔ a.key ≤ b.key := by
  simp only [le, key, Prod.Lex.toLex_le_toLex]
  by_cases hspecifier : a.specifier = b.specifier
  · by_cases hexported : a.exported = b.exported
    · simp [hspecifier, hexported]
    · simp [hspecifier, hexported, le_iff_lt_or_eq]
  · simp [hspecifier, le_iff_lt_or_eq]

theorem le_trans (a b c : ImportClause) (hab : a.le b = true) (hbc : b.le c = true) :
    a.le c = true := by
  rw [le_iff] at *
  exact hab.trans hbc

theorem le_total (a b : ImportClause) : a.le b = true ∨ b.le a = true := by
  rw [le_iff, le_iff]
  exact LinearOrder.le_total a.key b.key

theorem le_antisymm (a b : ImportClause) (hab : a.le b = true) (hba : b.le a = true) :
    a = b := by
  rw [le_iff] at hab hba
  apply key_injective
  exact hab.antisymm hba

theorem specifier_le_of_le {a b : ImportClause} (h : a.le b = true) :
    a.specifier ≤ b.specifier := by
  unfold le at h
  split at h
  · rename_i heq
    exact heq.le
  · exact of_decide_eq_true h

end ImportClause

/-! ## Blocks hold each clause once -/

namespace ImportBlock

/-- In an ascending list the repetitions of a clause are adjacent, so all of them are taken
out. -/
theorem dropRepeats_spec {l : List ImportClause} (h : l.Pairwise fun a b => a.le b) :
    ((dropRepeats l).Pairwise fun a b => a.le b ∧ a ≠ b) ∧ ∀ c, c ∈ dropRepeats l ↔ c ∈ l := by
  fun_induction dropRepeats l with
  | case1 => exact ⟨.nil, fun _ => Iff.rfl⟩
  | case2 c => exact ⟨List.pairwise_singleton _ c, fun _ => Iff.rfl⟩
  | case3 c rest ih =>
    obtain ⟨hpairwise, hmem⟩ := ih (List.pairwise_cons.1 h).2
    refine ⟨hpairwise, ?_⟩
    intro a
    rw [hmem]
    simp
  | case4 c d rest hne ih =>
    obtain ⟨hc, hrest⟩ := List.pairwise_cons.1 h
    obtain ⟨hpairwise, hmem⟩ := ih hrest
    refine ⟨List.pairwise_cons.2 ⟨?_, hpairwise⟩, ?_⟩
    · intro a ha
      have ha := (hmem a).1 ha
      refine ⟨hc a ha, ?_⟩
      rintro rfl
      -- Between two equal clauses of an ascending list there is no other.
      rcases List.mem_cons.1 ha with heq | ha
      · exact hne heq
      · exact hne (ImportClause.le_antisymm c d (hc d List.mem_cons_self)
          ((List.pairwise_cons.1 hrest).1 c ha))
    · intro a
      rw [List.mem_cons, hmem, ← List.mem_cons]

theorem clauses_spec (asked : List ImportClause) :
    ((clauses asked).Pairwise fun a b => a.le b ∧ a ≠ b) ∧
      ∀ c, c ∈ clauses asked ↔ c ∈ asked := by
  obtain ⟨hpairwise, hmem⟩ :=
    dropRepeats_spec (pairwise_sortBy ImportClause.le_trans ImportClause.le_total asked)
  exact ⟨hpairwise, fun c => (hmem c).trans (mem_sortBy _)⟩

theorem nodup_clauses (asked : List ImportClause) : (clauses asked).Nodup :=
  (clauses_spec asked).1.imp fun h => h.2

theorem mem_clauses {asked : List ImportClause} {c : ImportClause} :
    c ∈ clauses asked ↔ c ∈ asked :=
  (clauses_spec asked).2 c

/-- The clauses that the lines of one module bind, in the order of the lines. -/
def boundBy (specifier : String) (clauses : List ImportClause) : List ImportClause :=
  let own := clauses.filter (·.specifier = specifier)
  own.filter (·.isWhole) ++ own.filter (!·.isWhole)

/-- The clauses that a block binds, in the order of its lines. -/
def bound (asked : List ImportClause) : List ImportClause :=
  (specifiers (clauses asked)).flatMap fun s => boundBy s (clauses asked)

theorem specifiers_clauses_spec (asked : List ImportClause) :
    ((specifiers (clauses asked)).Pairwise fun a b => a ≤ b ∧ a ≠ b) ∧
      ∀ c ∈ clauses asked, c.specifier ∈ specifiers (clauses asked) := by
  have hascending : (clauses asked).Pairwise fun a b => a.specifier ≤ b.specifier :=
    (clauses_spec asked).1.imp fun h => ImportClause.specifier_le_of_le h.1
  have hspecifiers := List.pairwise_map.2 hascending
  obtain ⟨hpairwise, hmem⟩ := pairwise_eraseReps (fun a b => String.le_antisymm) hspecifiers
  refine ⟨hpairwise, ?_⟩
  intro c hc
  apply (hmem _).2
  exact List.mem_map_of_mem hc

/-- The lines of a block bind each of its clauses once. -/
theorem bound_perm (asked : List ImportClause) : (bound asked).Perm (clauses asked) := by
  obtain ⟨hascending, hmem⟩ := specifiers_clauses_spec asked
  have hnodup : (specifiers (clauses asked)).Nodup := hascending.imp fun h => h.2
  have hlines : (bound asked).Perm ((specifiers (clauses asked)).flatMap fun s =>
      (clauses asked).filter (·.specifier = s)) := by
    apply List.Perm.flatMap_left
    intro s _
    exact List.filter_append_perm _ _
  have hall : (clauses asked).filter (·.specifier ∈ specifiers (clauses asked)) =
      clauses asked := by
    apply List.filter_eq_self.2
    intro c hc
    exact decide_eq_true (hmem c hc)
  have hgroups := Reordering.flatMap_filter_perm (·.specifier) (clauses asked) hnodup
  rw [hall] at hgroups
  exact hlines.trans hgroups

end ImportBlock

namespace Emit

open DaoGen.Schema

/-! ## Top-level names -/

/-- The name that a statement declares. -/
def Stmt.declared? : Stmt → Option String
  | .const name _ => some name
  | .letVar name _ => some name
  | _ => none

namespace ModuleCode

/-- The names that a module binds at its top level, in order. -/
def boundNames (m : ModuleCode) : List String :=
  (ImportBlock.bound m.imports).map (·.localName) ++
    m.exported.name :: m.trailer.filterMap (·.declared?)

/-- A module that declares nothing but its class binds no name twice when its clauses agree on
every local name and none has the name of the class. -/
theorem nodup_boundNames_iff {m : ModuleCode} (htrailer : m.trailer = []) :
    m.boundNames.Nodup ↔
      (∀ a ∈ m.imports, ∀ b ∈ m.imports, a.localName = b.localName → a = b) ∧
        ∀ a ∈ m.imports, a.localName ≠ m.exported.name := by
  have hperm := ImportBlock.bound_perm m.imports
  have hnodup := hperm.nodup_iff.2 (ImportBlock.nodup_clauses m.imports)
  have hmem : ∀ c, c ∈ ImportBlock.bound m.imports ↔ c ∈ m.imports := fun c =>
    hperm.mem_iff.trans ImportBlock.mem_clauses
  have hnames : m.boundNames =
      (ImportBlock.bound m.imports).map (·.localName) ++ [m.exported.name] := by
    rw [boundNames, htrailer, List.filterMap_nil]
  rw [hnames, List.nodup_append, List.nodup_map_iff_inj_on hnodup]
  simp only [hmem, List.nodup_singleton, true_and, List.mem_map, List.mem_singleton,
    forall_exists_index, and_imp, forall_apply_eq_imp_iff₂, forall_eq]

end ModuleCode

/-! ## The names of a helper's module -/

namespace HelperModule

/-- The clauses that a helper's tables and upgrade routines ask for. -/
def asked (outDir : Path) (h : Helper) : List ImportClause :=
  h.tables.flatMap (tableImports outDir) ++ ownerImports outDir h

/-- The names of the runtime that a helper uses. -/
def usedNames (runtime : RuntimeNames) (h : Helper) : List String :=
  runtimeNames runtime ++ tableRuntimeNames runtime h.tables

/-- The clause that binds the config writer. -/
def configClause (h : Helper) : ImportClause := .same ("./" ++ h.configName) h.configName

/-- What keeps the names of a helper's module apart from each other. -/
structure Apart (runtime : RuntimeNames) (outDir : Path) (h : Helper) : Prop where
  /-- tables and routines ask for no local name in two ways -/
  agree : ∀ a ∈ asked outDir h, ∀ b ∈ asked outDir h, a.localName = b.localName → a = b
  /-- a name of the runtime that they ask for is the one of the runtime -/
  names : ∀ a ∈ asked outDir h, a.localName ∈ usedNames runtime h →
    a = .same runtime.home a.localName
  /-- the name of the config writer, if they ask for it, is the one of the config writer -/
  config : h.writesConfig = true → ∀ a ∈ asked outDir h, a.localName = h.configName →
    a = configClause h
  /-- they do not ask for the name of the helper's class -/
  className : ∀ a ∈ asked outDir h, a.localName ≠ h.className
  className_names : h.className ∉ usedNames runtime h
  configName_names : h.writesConfig = true → h.configName ∈ usedNames runtime h →
    runtime.home = "./" ++ h.configName

variable {runtime : RuntimeNames} {outDir : Path} {h : Helper}

theorem mem_imports {c : ImportClause} :
    c ∈ imports runtime outDir h ↔
      (∃ name ∈ usedNames runtime h, .same runtime.home name = c) ∨ c ∈ asked outDir h ∨
        h.writesConfig = true ∧ c = configClause h := by
  have hconfig : c ∈ configImports h ↔ h.writesConfig = true ∧ c = configClause h := by
    unfold configImports configClause
    split <;> simp_all
  rw [imports, List.mem_append, List.mem_append, List.mem_append, List.mem_map, hconfig, asked,
    List.mem_append]
  simp only [usedNames, or_assoc]

theorem configName_ne_className : h.configName ≠ h.className := by
  intro heq
  have hlist := congrArg String.toList heq
  simp only [Helper.configName, Helper.className, Naming.configClass, Naming.helperClass,
    String.toList_append] at hlist
  have hrest := List.append_cancel_left hlist
  revert hrest
  decide

/-- Clauses that agree on every local name keep the names apart. -/
theorem apart_of_agree
    (hagree : ∀ a ∈ imports runtime outDir h, ∀ b ∈ imports runtime outDir h,
      a.localName = b.localName → a = b)
    (hclass : ∀ a ∈ imports runtime outDir h, a.localName ≠ h.className) :
    Apart runtime outDir h := by
  have hruntime : ∀ name ∈ usedNames runtime h,
      ImportClause.same runtime.home name ∈ imports runtime outDir h := by
    intro name hname
    rw [mem_imports]
    exact .inl ⟨name, hname, rfl⟩
  have hasked : ∀ c ∈ asked outDir h, c ∈ imports runtime outDir h := by
    intro c hc
    rw [mem_imports]
    exact .inr (.inl hc)
  have hconfig : h.writesConfig = true → configClause h ∈ imports runtime outDir h := by
    intro hwrites
    rw [mem_imports]
    exact .inr (.inr ⟨hwrites, rfl⟩)
  constructor
  case agree =>
    intro a ha b hb
    exact hagree a (hasked a ha) b (hasked b hb)
  case names =>
    intro a ha hname
    exact hagree a (hasked a ha) _ (hruntime _ hname) rfl
  case config =>
    intro hwrites a ha hname
    exact hagree a (hasked a ha) _ (hconfig hwrites) hname
  case className =>
    intro a ha
    exact hclass a (hasked a ha)
  case className_names =>
    intro hname
    exact hclass _ (hruntime _ hname) rfl
  case configName_names =>
    intro hwrites hname
    exact congrArg ImportClause.specifier (hagree _ (hruntime _ hname) _ (hconfig hwrites) rfl)

/-- Clauses of one local name are one clause, wherever each of them comes from. -/
theorem Apart.agree_imports (hapart : Apart runtime outDir h) :
    ∀ a ∈ imports runtime outDir h, ∀ b ∈ imports runtime outDir h,
      a.localName = b.localName → a = b := by
  have hconfig : h.writesConfig = true → ∀ name ∈ usedNames runtime h, name = h.configName →
      ImportClause.same runtime.home name = configClause h := by
    rintro hwrites name hname rfl
    rw [configClause, hapart.configName_names hwrites hname]
  intro a ha b hb heq
  rcases mem_imports.1 ha with ⟨name, hname, rfl⟩ | ha | ⟨hwrites, rfl⟩
  · rcases mem_imports.1 hb with ⟨other, -, rfl⟩ | hb | ⟨hwrites, rfl⟩
    · exact congrArg (ImportClause.same runtime.home) heq
    · have hb := hapart.names b hb (heq ▸ hname)
      rw [hb, ← heq]
      rfl
    · exact hconfig hwrites name hname heq
  · rcases mem_imports.1 hb with ⟨other, hother, rfl⟩ | hb | ⟨hwrites, rfl⟩
    · have ha := hapart.names a ha (heq.symm ▸ hother)
      rw [ha, heq]
      rfl
    · exact hapart.agree a ha b hb heq
    · exact hapart.config hwrites a ha heq
  · rcases mem_imports.1 hb with ⟨other, hother, rfl⟩ | hb | ⟨-, rfl⟩
    · exact (hconfig hwrites other hother heq.symm).symm
    · exact (hapart.config hwrites b hb heq.symm).symm
    · rfl

theorem Apart.className_imports (hapart : Apart runtime outDir h) :
    ∀ a ∈ imports runtime outDir h, a.localName ≠ h.className := by
  intro a ha
  rcases mem_imports.1 ha with ⟨name, hname, rfl⟩ | ha | ⟨-, rfl⟩
  · rintro rfl
    exact hapart.className_names hname
  · exact hapart.className a ha
  · exact configName_ne_className

end HelperModule

open HelperModule

/-- The module of a helper binds every name once exactly when the names that its tables, its
routines and its runtime bring along are kept apart. -/
theorem boundNames_nodup_iff (runtime : RuntimeNames) (outDir : Path) (h : Helper) :
    (helperModule runtime outDir h).boundNames.Nodup ↔ Apart runtime outDir h := by
  rw [ModuleCode.nodup_boundNames_iff rfl]
  constructor
  · rintro ⟨hagree, hclass⟩
    exact apart_of_agree hagree hclass
  · intro hapart
    exact ⟨hapart.agree_imports, hapart.className_imports⟩

/-- Two tables of one name from different modules are imported under that name both, though the
names of the runtime are distinct and the output directory is absolute. -/
theorem boundNames_repeated_for_equal_names :
    let field : Source.Field :=
      ⟨"id", some ⟨"number", .primitive "number"⟩, false,
        [⟨"DatabaseField", none, [.object default [("id", .boolean default true)]], default⟩],
        default⟩
    let table : Source.SourceClass :=
      ⟨"Row", none, [⟨"DatabaseTable", none, [], default⟩], [field], [], false, true, default⟩
    let options : Source.Expr :=
      .object default [("name", .string default "db"),
        ("tables", .array default [.name default "A", .name default "B"])]
    let owner : Source.SourceClass :=
      ⟨"Db", none, [⟨"Helper", none, [options], default⟩], [], [], false, true, default⟩
    let imports : List Source.Import :=
      [⟨[⟨"Row", some "A"⟩], "./a", default⟩, ⟨[⟨"Row", some "B"⟩], "./b", default⟩]
    let p := Program.ofSources ⟨"/src"⟩
      [⟨⟨"/src/a.ts"⟩, "", [], [table], []⟩, ⟨⟨"/src/b.ts"⟩, "", [], [table], []⟩,
        ⟨⟨"/src/db.ts"⟩, "", imports, [owner], []⟩]
    let runtime : RuntimeNames := {}
    let outDir : Path := ⟨"/out"⟩
    outDir.isAbsolute = true ∧
    ∃ h ∈ (Validation.ofProgram p (Registry.ofProgram p) runtime).helpers,
      (runtime.configUtil :: usedNames runtime h).Nodup ∧
      ¬ (helperModule runtime outDir h).boundNames.Nodup := by
  intro field table options owner imports p runtime outDir
  have hrepeated : ∃ h ∈ (Validation.ofProgram p (Registry.ofProgram p) runtime).helpers,
      (runtime.configUtil :: usedNames runtime h).Nodup ∧
      (helperModule runtime outDir h).boundNames.take 2 = ["Row", "Row"] := by decide +kernel
  obtain ⟨h, hmem, hnames, hrows⟩ := hrepeated
  refine ⟨by decide +kernel, h, hmem, hnames, fun hnodup => ?_⟩
  have htwo := hnodup.sublist (List.take_sublist 2 _)
  rw [hrows] at htwo
  revert htwo
  decide

end Emit

end DaoGen
