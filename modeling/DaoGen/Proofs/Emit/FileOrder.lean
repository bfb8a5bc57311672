import DaoGen.Emit.Generation
import DaoGen.Proofs.Helper.Validation
set_option autoImplicit false

/-!
# The order of the source files does not matter

The indices of files and classes follow from the order in which the files are read, and
everything looked up, checked and written goes by these indices.  Yet they are written
nowhere: the same files in another order generate the same modules, as long as no
generated class name is claimed twice.
-/

namespace DaoGen

open DaoGen.Schema DaoGen.Validation

namespace Emit

variable (runtime : RuntimeNames) (outDir : Path) (h : Helper) (τ : ClassId → ClassId)

/-! ## Modules of a helper under other indices -/

theorem imports_rename :
    HelperModule.imports runtime outDir (h.rename τ) = HelperModule.imports runtime outDir h := by
  have hnames : HelperModule.tableRuntimeNames runtime (h.tables.map (·.rename τ)) =
      HelperModule.tableRuntimeNames runtime h.tables := by
    simp [HelperModule.tableRuntimeNames]
  simp only [HelperModule.imports, Helper.rename, List.flatMap_map, hnames]
  rfl

theorem forTables_rename (method : String) (extra : List Expr) (tables : List Table) :
    HelperModule.forTables runtime method extra (tables.map (·.rename τ)) =
      HelperModule.forTables runtime method extra tables := by
  rw [HelperModule.forTables, List.map_map]
  rfl

theorem members_rename :
    HelperModule.members runtime (h.rename τ) = HelperModule.members runtime h := by
  have htables : (h.rename τ).tables = h.tables.map (·.rename τ) := rfl
  simp only [HelperModule.members, HelperModule.onCreate, HelperModule.clearTables,
    HelperModule.dropTables, HelperModule.close, htables, forTables_rename, List.map_map]
  rfl

theorem configModule_rename :
    configModule runtime outDir (h.rename τ) = configModule runtime outDir h := by
  have htables : (h.rename τ).tables = h.tables.map (·.rename τ) := rfl
  simp only [configModule, ConfigModule.imports, ConfigModule.tableClasses, htables, List.map_map]
  rfl

/-- The indices in a helper are written nowhere. -/
theorem filesOf_rename : filesOf runtime outDir (h.rename τ) = filesOf runtime outDir h := by
  have hmodule : helperModule runtime outDir (h.rename τ) = helperModule runtime outDir h := by
    rw [helperModule, imports_rename, members_rename]
    rfl
  rw [filesOf, modulesOf, hmodule, configModule_rename]
  rfl

theorem generate_rename (helpers : List Helper) :
    generate runtime outDir (helpers.map (·.rename τ)) = generate runtime outDir helpers := by
  simp only [generate, List.flatMap_map, filesOf_rename]

end Emit

/-! ## Reordered source files -/

/-- What some source files declare, checked against each other. -/
def Validation.ofSources (runtime : RuntimeNames) (sourceDir : Path)
    (files : List Source.SourceFile) : Validation :=
  let p := Program.ofSources sourceDir files
  Validation.ofProgram p (Registry.ofProgram p) runtime

/-- The same source files in another order generate the same files in the same order, and
the same complaints are made about them, unless two helpers claim one class name. -/
theorem generate_eq_of_perm (runtime : RuntimeNames) (sourceDir outDir : Path)
    {files files' : List Source.SourceFile} (h : files.Perm files')
    (hnodup : ((Program.ofSources sourceDir files).helpers.filterMap claimedName).Nodup) :
    Emit.generate runtime outDir (ofSources runtime sourceDir files').helpers =
        Emit.generate runtime outDir (ofSources runtime sourceDir files).helpers ∧
      (ofSources runtime sourceDir files').diagnostics.Perm
        (ofSources runtime sourceDir files).diagnostics := by
  obtain ⟨σ, τ, hreorders⟩ := Program.exists_reorders_of_perm sourceDir h
  have howner : ∀ d ∈ (Program.ofSources sourceDir files).helpers,
      d.owner < (Program.ofSources sourceDir files).classes.length :=
    fun _ hd => Program.owner_lt_of_mem_helpers hd
  obtain ⟨hhelpers, hdiagnostics⟩ := hreorders.ofProgram_same runtime howner hnodup
  refine ⟨?_, hdiagnostics.symm⟩
  rw [ofSources, hhelpers]
  exact Emit.generate_rename runtime outDir τ _

/-- Two files with a helper each generate the same in both orders. -/
theorem generate_eq_of_swap :
    let file (name : String) : Source.SourceFile :=
      ⟨⟨name ++ ".ts"⟩, "", [], [⟨name, none,
        [⟨"Helper", none, [.object default [("name", .string default name)]], default⟩],
        [], [], false, true, default⟩], []⟩
    let helpersOf (files : List Source.SourceFile) := (ofSources {} ⟨"src"⟩ files).helpers
    ((Program.ofSources ⟨"src"⟩ [file "Tasks", file "Notes"]).helpers.filterMap
        claimedName).Nodup ∧
      (helpersOf [file "Tasks", file "Notes"]).map (·.name) = ["Notes", "Tasks"] ∧
      Emit.generate {} ⟨"out"⟩ (helpersOf [file "Notes", file "Tasks"]) =
        Emit.generate {} ⟨"out"⟩ (helpersOf [file "Tasks", file "Notes"]) := by
  intro file helpersOf
  have hnodup : ((Program.ofSources ⟨"src"⟩ [file "Tasks", file "Notes"]).helpers.filterMap
      claimedName).Nodup := by
    decide +kernel
  refine ⟨hnodup, ?_, (generate_eq_of_perm {} ⟨"src"⟩ ⟨"out"⟩ (.swap _ _ []) hnodup).1⟩
  decide +kernel

end DaoGen
