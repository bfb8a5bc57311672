import DaoGen.Emit.Generation
import DaoGen.Proofs.Emit.FileOrder
import DaoGen.Proofs.Helper.Tables
import DaoGen.Proofs.Schema.References
import DaoGen.Proofs.Source.Exports
set_option autoImplicit false

/-!
# Whether the imports of classes link

The modules of a helper import the classes of its tables, and the class with the upgrade routines,
under their own names from the files in which they were found.  Accepting a helper warns about each
of these classes that stands in no export statement.  Without a warning all of them stand in one,
but that is not enough: a class that is exported as `default` is not exported under its name
(`Emit.class_imports_link`).
-/

namespace DaoGen

open DaoGen.Schema DaoGen.Validation
open DaoGen.Syntax (Node)

/-! ## Warnings -/

/-- The warnings that tell of an import that cannot be resolved. -/
def Event.tellsOfMissingExport (e : Event) : Bool :=
  e.message = "table class is not exported; the generated import will not resolve" ||
    e.message = "helper class is not exported; the generated import will not resolve"

namespace HelperDeclaration

variable {p : Program} {registry : Registry} {runtime : RuntimeNames} {d : HelperDeclaration}
  {routines : List RoutineDeclaration} {h : Helper}

/-- Accepting a helper warns about its tables and its own class. -/
theorem events_of_accept (hresult : (d.accept p registry runtime routines).result = .ok h) :
    ∃ more, (d.accept p registry runtime routines).events =
      h.tables.filterMap (tableWarning p) ++ (ownerWarning p d).toList ++ more := by
  obtain ⟨name, version, hname, hversion, rfl⟩ := exists_of_result_accept hresult
  rw [accept_def] at hresult ⊢
  simp only [conclude, hname, hversion] at hresult ⊢
  split
  · exact ⟨_, rfl⟩
  · rename_i hproblems
    rw [if_neg hproblems] at hresult
    cases hresult

/-- Without a warning all classes that the helper needs stand in export statements. -/
theorem exported_of_accept (hresult : (d.accept p registry runtime routines).result = .ok h)
    (hsilent : ∀ e ∈ (d.accept p registry runtime routines).events,
      e.tellsOfMissingExport = false) :
    (∀ t ∈ h.tables, (p.classAt t.id).exported = true) ∧ (p.classAt d.owner).exported = true := by
  obtain ⟨more, hevents⟩ := events_of_accept hresult
  rw [hevents] at hsilent
  constructor
  · intro t ht
    by_contra hnot
    have hwarning : tableWarning p t = some _ := if_neg hnot
    have hmem := List.mem_filterMap.2 ⟨t, ht, hwarning⟩
    have hsilent := hsilent _ (List.mem_append_left _ (List.mem_append_left _ hmem))
    cases hsilent
  · by_contra hnot
    have hwarning : ownerWarning p d = some _ := if_neg hnot
    have hmem := Option.mem_toList.2 hwarning
    have hsilent := hsilent _ (List.mem_append_left _ (List.mem_append_right _ hmem))
    cases hsilent

end HelperDeclaration

namespace Validation

variable {p : Program} {registry : Registry} {runtime : RuntimeNames} {h : Helper}

/-- An outcome with a helper is that of a declaration on its own. -/
theorem exists_accept_of_mem_outcomes {claims : Claims} {ds : List HelperDeclaration}
    {outcome : HelperDeclaration.Outcome} (hmem : outcome ∈ outcomes p registry runtime claims ds)
    (hresult : outcome.result = .ok h) :
    ∃ d ∈ ds, outcome = d.accept p registry runtime (routinesOf p d.owner) := by
  obtain ⟨claimed, d, hd, rfl⟩ := exists_outcomeOf_of_mem_outcomes hmem
  refine ⟨d, hd, ?_⟩
  unfold outcomeOf at hresult ⊢
  split
  · rename_i hduplicate
    rw [hduplicate] at hresult
    cases hresult
  · rfl

/-- Every helper of a program is the result of one of the outcomes. -/
theorem exists_outcome_of_mem_helpers (hmem : h ∈ (ofProgram p registry runtime).helpers) :
    ∃ outcome ∈ outcomes p registry runtime [] p.helpers, outcome.result = .ok h :=
  List.mem_map.1 (HelperDeclaration.mem_values.1 ((mem_sortBy helperLe).1 hmem))

end Validation

/-! ## Imports of classes -/

namespace Emit

/-- The imports that the modules of a helper make for classes of the program. -/
def classImports (outDir : Path) (h : Helper) : List ImportClause :=
  h.tables.map (fun t => HelperModule.classImport outDir t.home t.name) ++
    HelperModule.ownerImports outDir h

/-- An import of a class is made from the file of a table's class or of the helper's class, under
the name of that class. -/
theorem exists_class_of_mem_classImports {p : Program} {runtime : RuntimeNames} {outDir : Path}
    {d : HelperDeclaration} {routines : List RoutineDeclaration} {h : Helper}
    (hresult : (d.accept p (Registry.ofProgram p) runtime routines).result = .ok h)
    {c : ImportClause} (hc : c ∈ classImports outDir h) :
    ∃ id, (id = d.owner ∨ ∃ t ∈ h.tables, id = t.id) ∧
      c = HelperModule.classImport outDir (p.homeOf id) (p.classAt id).name := by
  rcases List.mem_append.1 hc with hc | hc
  · obtain ⟨t, ht, rfl⟩ := List.mem_map.1 hc
    obtain ⟨entry, -, haccept⟩ := HelperDeclaration.exists_entry_of_mem_tables hresult ht
    have hrepresents := HelperDeclaration.represents_of_acceptTable haccept
    exact ⟨t.id, .inr ⟨t, ht, rfl⟩, by rw [hrepresents.home, hrepresents.name]⟩
  · obtain ⟨name, version, -, -, rfl⟩ := HelperDeclaration.exists_of_result_accept hresult
    refine ⟨d.owner, .inl rfl, ?_⟩
    unfold HelperModule.ownerImports at hc
    split at hc
    · split at hc
      · cases hc
      · exact List.mem_singleton.1 hc
    · cases hc

/-- Every class that a helper's modules import, when accepting the helper warned about none, stands
in an export statement of the file that the import names.  That statement exports the class under
its name, and so the import links, as long as it does not say `default`; if it does, the statement
exports no name but `default`. -/
theorem class_imports_link (runtime : RuntimeNames) (dir outDir : Path)
    (sources : List (Path × String × Node)) (h : Helper) :
    let files := sources.map fun s => Source.ofTree s.1 s.2.1 s.2.2
    let p := Program.ofSources dir files
    let v := Validation.ofSources runtime dir files
    h ∈ v.helpers → ∃ outcome ∈ outcomes p (Registry.ofProgram p) runtime [] p.helpers,
      outcome.result = .ok h ∧ (∀ e ∈ outcome.events, e ∈ v.events) ∧
      ((∀ e ∈ outcome.events, e.tellsOfMissingExport = false) →
        ∀ m ∈ modulesOf runtime outDir h, ∀ c ∈ m.imports, c ∈ classImports outDir h →
        ∃ s ∈ sources, ∃ statement ∈ s.2.2.children,
          let home := ModuleName.file (ScannedFile.ofSource (Source.ofTree s.1 s.2.1 s.2.2)).stem
          c = HelperModule.classImport outDir home c.exported ∧
          Source.IsExporting statement c.exported ∧
          (Source.isDefault statement = false → c.exported ∈ Source.exportedNames s.2.2) ∧
          (Source.isDefault statement = true →
            Source.namesExportedBy statement = ["default"])) := by
  intro files p v hmem
  obtain ⟨outcome, houtcome, hresult⟩ := exists_outcome_of_mem_helpers hmem
  refine ⟨outcome, houtcome, hresult, fun e he => List.mem_flatMap.2 ⟨outcome, houtcome, he⟩, ?_⟩
  intro hsilent m _ c _ hc
  obtain ⟨d, -, rfl⟩ := exists_accept_of_mem_outcomes houtcome hresult
  obtain ⟨htables, howner⟩ := HelperDeclaration.exported_of_accept hresult hsilent
  obtain ⟨id, hid, rfl⟩ := exists_class_of_mem_classImports hresult hc
  have hexported : (p.classAt id).exported = true := by
    rcases hid with rfl | ⟨t, ht, rfl⟩
    · exact howner
    · exact htables t ht
  obtain ⟨s, hs, hfile, statement, hstatement, hexporting⟩ :=
    Program.exists_exporting_of_exported hexported
  refine ⟨s, hs, statement, hstatement, ?_, hexporting,
    hexporting.mem_exportedNames hstatement, hexporting.namesExportedBy_eq⟩
  rw [Program.homeOf_def, hfile]
  rfl

/-! ## A table that is exported as default -/

/-- The tree of a table in an export statement, which may say `default`, and of its helper. -/
def rowTree (saysDefault : Bool) : Node :=
  let mark := token .plain .mark
  let shift := if saysDefault then 8 else 0
  let decorator (before : String) (column : Nat) (name : String) (options : List Node) : Node :=
    let last := (options.flatMap (·.fullText)).length
    .branch .plain .decorator
      [mark before column "@", .branch .plain .call
        [token .function .name "" (column + 1) name,
          .branch .arguments .arguments
            ([mark "" (column + 1 + name.length) "("] ++ options ++
              [mark "" (column + 2 + name.length + last) ")"])]]
  let option (column : Nat) (key : String) (value : Node) : Node := .branch .plain .pair
    [token .key .propertyName " " column key, mark "" (column + key.length) ":", value]
  let identifier : Node := .branch .plain .object
    [mark "" (51 + shift) "\x7b", option (53 + shift) "id"
      (token .value .true " " (57 + shift) "true"), mark " " (62 + shift) "\x7d"]
  let type : Node := .branch .type .typeClause
    [mark "" (67 + shift) ":", .branch .plain .predefinedType [mark " " (69 + shift) "number"]]
  let field : Node := .branch .plain .field
    [decorator " " (36 + shift) "DatabaseField" [identifier],
      token .plain .propertyName " " (65 + shift) "id", type]
  let row : Node := .branch .plain .classDeclaration
    [mark " " (24 + shift) "class", token .name .typeName " " (30 + shift) "Row",
      .branch .plain .classBody
        [mark " " (34 + shift) "\x7b", field, mark "" (75 + shift) ";",
          mark " " (77 + shift) "\x7d"]]
  let name : Node := .branch .value .string
    [mark " " (95 + shift) "\"", token .plain .fragment "" (96 + shift) "db",
      mark "" (98 + shift) "\""]
  let tables : Node := .branch .value .array
    [mark " " (109 + shift) "[", token .plain .name "" (110 + shift) "Row",
      mark "" (113 + shift) "]"]
  let options : Node := .branch .plain .object
    [mark "" (87 + shift) "\x7b", option (89 + shift) "name" name, mark "" (99 + shift) ",",
      option (101 + shift) "tables" tables, mark " " (115 + shift) "\x7d"]
  let helper : Node := .branch .plain .classDeclaration
    [mark " " (125 + shift) "class", token .name .typeName " " (131 + shift) "Db",
      .branch .plain .classBody [mark " " (134 + shift) "\x7b", mark "" (135 + shift) "\x7d"]]
  .branch .plain .program
    [.branch .plain .exportStatement
      ([decorator "" 0 "DatabaseTable" [], mark " " 17 "export"] ++
        (if saysDefault then [mark " " 24 "default"] else []) ++ [row]),
      .branch .plain .exportStatement
        [decorator " " (79 + shift) "Helper" [options], mark " " (118 + shift) "export", helper]]

/-- The text of that table and its helper. -/
def rowText (saysDefault : Bool) : String :=
  "@DatabaseTable() export" ++ (if saysDefault then " default" else "") ++
    " class Row \x7b @DatabaseField(\x7b id: true \x7d) id: number; \x7d " ++
    "@Helper(\x7b name: \"db\", tables: [Row] \x7d) export class Db \x7b\x7d"

/-- A table that is exported under its name can be imported under it. -/
theorem class_imports_link_named :
    let sources := [(⟨"/src/db.ts"⟩, rowText false, rowTree false)]
    let files := sources.map fun s => Source.ofTree s.1 s.2.1 s.2.2
    let c : ImportClause := ⟨"../src/db", "Row", "Row"⟩
    (∀ s ∈ sources, String.ofList s.2.2.fullText = s.2.1) ∧
      ∃ h ∈ (Validation.ofSources {} ⟨"/src"⟩ files).helpers,
        c ∈ (helperModule {} ⟨"/out"⟩ h).imports ∧ c ∈ classImports ⟨"/out"⟩ h ∧
          ∃ s ∈ sources, c.exported ∈ Source.exportedNames s.2.2 := by
  intro sources files c
  obtain ⟨h, hmem, himports, hc⟩ : ∃ h ∈ (Validation.ofSources {} ⟨"/src"⟩ files).helpers,
      c ∈ (helperModule {} ⟨"/out"⟩ h).imports ∧ c ∈ classImports ⟨"/out"⟩ h := by
    decide +kernel
  have hevents : (Validation.ofSources {} ⟨"/src"⟩ files).events = [] := by decide +kernel
  have hnamed : ∀ s ∈ sources, ∀ statement ∈ s.2.2.children,
      Source.isDefault statement = false := by
    decide +kernel
  obtain ⟨outcome, -, -, hlogged, hlinks⟩ :=
    class_imports_link {} ⟨"/src"⟩ ⟨"/out"⟩ sources h hmem
  have hsilent : ∀ e ∈ outcome.events, e.tellsOfMissingExport = false := by
    intro e he
    have hevent := hlogged e he
    rw [hevents] at hevent
    cases hevent
  obtain ⟨s, hs, statement, hstatement, -, -, hexported, -⟩ :=
    hlinks hsilent (helperModule {} ⟨"/out"⟩ h) List.mem_cons_self c himports hc
  exact ⟨by decide +kernel, h, hmem, himports, hc, s, hs,
    hexported (hnamed s hs statement hstatement)⟩

/-- A table that is exported as default is imported under a name that its file does not export, and
no warning is given. -/
theorem class_imports_link_default :
    let sources := [(⟨"/src/db.ts"⟩, rowText true, rowTree true)]
    let files := sources.map fun s => Source.ofTree s.1 s.2.1 s.2.2
    let v := Validation.ofSources {} ⟨"/src"⟩ files
    (∀ s ∈ sources, String.ofList s.2.2.fullText = s.2.1) ∧ v.events = [] ∧
      ∃ h ∈ v.helpers, ⟨"../src/db", "Row", "Row"⟩ ∈ classImports ⟨"/out"⟩ h ∧
        ⟨"../src/db", "Row", "Row"⟩ ∈ (helperModule {} ⟨"/out"⟩ h).imports ∧
        "Row" ∉ Source.exportedNames (rowTree true) := by
  decide +kernel

end Emit

end DaoGen
