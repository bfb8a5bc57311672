import DaoGen.Proofs.Emit.FileNames
import DaoGen.Proofs.Emit.Uses
import DaoGen.Proofs.Helper.Tables
import DaoGen.Proofs.Schema.References
import DaoGen.Proofs.Source.Texts
set_option autoImplicit false

/-!
# What a helper's module imports is what it uses

The imports of a helper's module are decided apart from the functions that emit its members.  Yet
the clauses of its import block are those of the entities that the references of its class stand
for, no more and no fewer (`Emit.imports_iff_used`).  An id type that is copied from a source
stands for what the names at its open places ask for (`Schema.Table.AsksFor`); each of them is a
part of the copied text.  The config writer is used when its module is generated too.  That module
may still be imported when it is not: what an id type asks for may come from a file of that path
(`Emit.config_module_imported_for_idType`).
-/

namespace DaoGen

open DaoGen.Schema
open DaoGen.Syntax (Node)

/-! ## What copied id types ask for -/

/-- A request binds the name that it is made for, or what stands before the first dot of it. -/
theorem Program.localName_prefix_of_importRequest {p : Program} {file : FileId} {written : String}
    {r : ImportRequest} (h : p.importRequest file written = some r) :
    r.localName.toList <+: written.toList := by
  rw [importRequest, ScannedFile.importRequest] at h
  split at h
  · rename_i qualifier rest hcut
    split at h
    · obtain rfl := Option.some.inj h
      rw [(Text.eq_of_cutFirst hcut).1, String.toList_ofList]
      exact List.prefix_append _ _
    · cases h
  · obtain ⟨i, -, rfl⟩ := Option.map_eq_some_iff.1 h
    exact List.prefix_rfl

namespace Schema

variable {p : Program} {sources : List (Path × String × Node)} {t : Table} {r : ImportRequest}

/-- The id type of a table is the text of the type of a field in one of some sources. -/
structure Table.IsCopyOf (p : Program) (sources : List (Path × String × Node)) (t : Table)
    (n : Node) : Prop where
  copied : ∃ imports, t.idType = .declared n.string imports
  source : ∃ s ∈ sources, Source.IsFieldType n s.2.2 ∧
    p.fileAt (p.classAt t.declaredOn).file = .ofSource (Source.ofTree s.1 s.2.1 s.2.2)
  field : ∃ type, (p.classAt t.declaredOn).idField.bind (·.type) = some type ∧
    type.text = n.string ∧ type.references = (Source.shapeOf n).references

/-- A name at an open place of a copied id type asks for an import. -/
def Table.AsksFor (p : Program) (sources : List (Path × String × Node)) (t : Table)
    (r : ImportRequest) : Prop :=
  ∃ n, t.IsCopyOf p sources n ∧ ∃ name, Source.Open n name ∧
    p.importRequest (p.classAt t.declaredOn).file name = some r

/-- What is asked for is a part of the text that is copied. -/
theorem Table.AsksFor.infix (h : t.AsksFor p sources r) :
    r.localName.toList <:+: t.idType.render.toList := by
  obtain ⟨n, hcopy, name, hopen, hr⟩ := h
  obtain ⟨imports, hcopied⟩ := hcopy.copied
  have hprefix := Program.localName_prefix_of_importRequest hr
  rw [hcopied, IdType.render, Node.string, String.toList_ofList]
  exact hprefix.isInfix.trans hopen.infix

theorem ofField_of_mem_tables (ht : t ∈ (Registry.ofProgram p).tables) {type : DeclaredType}
    (htype : (p.classAt t.declaredOn).idField.bind (·.type) = some type) :
    IdType.ofField (p.fileAt (p.classAt t.declaredOn).file) (some type) = t.idType := by
  obtain ⟨field, hfield, htype⟩ := Option.bind_eq_some_iff.1 htype
  have hown := ownIdType_of_mem_tables ht
  rw [ownIdType_def, hfield, Option.map_some, htype] at hown
  exact congrArg Found.idType (Option.some.inj hown)

/-- An id type that asks for something is made of the annotation of a field. -/
theorem exists_type_of_mem_imports (ht : t ∈ (Registry.ofProgram p).tables)
    (hr : r ∈ t.idType.imports) :
    ∃ type, (p.classAt t.declaredOn).idField.bind (·.type) = some type := by
  have hown := ownIdType_of_mem_tables ht
  rw [ownIdType_def] at hown
  obtain ⟨field, hfield, heq⟩ := Option.map_eq_some_iff.1 hown
  cases htype : field.type with
  | none =>
    rw [htype] at heq
    have hunknown : .declared "unknown" [] = t.idType := congrArg Found.idType heq
    rw [← hunknown] at hr
    cases hr
  | some type => exact ⟨type, by rw [hfield, Option.bind_some, htype]⟩

/-- The imports of an id type are what the names at its open places ask for. -/
theorem mem_imports_iff_asksFor {dir : Path} {sources : List (Path × String × Node)} :
    let files := sources.map fun s => Source.ofTree s.1 s.2.1 s.2.2
    let p := Program.ofSources dir files
    (∀ f ∈ files, f.WellNamed) → ∀ t ∈ (Registry.ofProgram p).tables, ∀ r : ImportRequest,
      r ∈ t.idType.imports ↔ t.AsksFor p sources r := by
  intro files p hwell t ht r
  have hfile : (p.fileAt (p.classAt t.declaredOn).file).WellNamed :=
    Program.wellNamed_fileAt_ofSources hwell _
  constructor
  · intro hr
    obtain ⟨type, htype⟩ := exists_type_of_mem_imports ht hr
    have hmade := ofField_of_mem_tables ht htype
    obtain ⟨s, hs, hsource, n, hn, htext, hreferences⟩ := exists_fieldType_of_idField htype
    cases hid : t.idType with
    | wrapped primitive wrapper =>
      rw [hid] at hr
      cases hr
    | declared text imports =>
      have hmade := hmade.trans hid
      rw [hid, IdType.imports, imports_of_ofField hmade, mem_requestsOf hfile] at hr
      obtain ⟨name, hname, hr⟩ := hr
      have hcopied : t.idType = .declared n.string imports := by
        rw [hid, text_of_ofField hmade, htext]
      refine ⟨n, ⟨⟨imports, hcopied⟩, ⟨s, hs, hn, hsource⟩, ⟨type, htype, htext, hreferences⟩⟩,
        name, ?_, hr⟩
      rw [hreferences] at hname
      exact (Source.mem_references_iff n name).1 hname
  · rintro ⟨n, hcopy, name, hopen, hr⟩
    obtain ⟨imports, hcopied⟩ := hcopy.copied
    obtain ⟨type, htype, -, hreferences⟩ := hcopy.field
    have himports := imports_of_ofField ((ofField_of_mem_tables ht htype).trans hcopied)
    rw [hcopied, IdType.imports, himports, mem_requestsOf hfile, hreferences]
    exact ⟨name, (Source.mem_references_iff n name).2 hopen, hr⟩

end Schema

/-! ## The tables of a helper -/

theorem HelperDeclaration.mem_tables_of_acceptTable {registry : Registry} {entry : TableEntry}
    {t : Table} (h : acceptTable registry entry = .ok t) : t ∈ registry.tables := by
  unfold acceptTable at h
  split at h
  · split at h
    · rename_i table hlookup
      obtain rfl := Except.ok.inj h
      exact List.mem_of_find?_eq_some hlookup
    · cases h
  · cases h
  · cases h

/-- The tables of a helper are registered. -/
theorem Validation.mem_tables_of_mem_helpers {p : Program} {registry : Registry}
    {runtime : RuntimeNames} {h : Helper} (hmem : h ∈ (ofProgram p registry runtime).helpers)
    {t : Table} (ht : t ∈ h.tables) : t ∈ registry.tables := by
  obtain ⟨d, -, hresult⟩ := exists_declaration_of_mem_helpers hmem
  obtain ⟨entry, -, haccept⟩ := HelperDeclaration.exists_entry_of_mem_tables hresult ht
  exact HelperDeclaration.mem_tables_of_acceptTable haccept

/-- Helpers of one sanitized name are one helper. -/
theorem Validation.eq_of_sanitized_eq_of_mem {p : Program} {registry : Registry}
    {runtime : RuntimeNames} {h k : Helper} (hh : h ∈ (ofProgram p registry runtime).helpers)
    (hk : k ∈ (ofProgram p registry runtime).helpers) (heq : h.sanitized = k.sanitized) :
    h = k := by
  have hnodup : ((ofProgram p registry runtime).helpers.map (·.sanitized)).Nodup :=
    List.pairwise_map.2 (nodup_sanitized p registry runtime)
  exact List.inj_on_of_nodup_map hnodup hh hk heq

/-! ## Imports and uses -/

namespace Emit

/-- The text of a reference. -/
def Reference.text : Reference → String
  | .name text => text
  | .type text => text

namespace HelperModule

variable {runtime : RuntimeNames} {outDir : Path} {h : Helper}

/-- What stands at a place of a helper's class refers to an entity: by the name of the entity, or
within a copied type by a name that asks for it. -/
inductive RefersTo (p : Program) (sources : List (Path × String × Node)) : Use → Entity → Prop where
  | entity (e : Entity) : RefersTo p sources (.entity e) e
  | request {t : Table} {r : ImportRequest} (hasks : t.AsksFor p sources r) :
    RefersTo p sources (.idType t) (.request r)

/-- Where something refers to an entity, the local name of the entity is printed. -/
theorem RefersTo.infix {p : Program} {sources : List (Path × String × Node)} {u : Use} {e : Entity}
    (href : RefersTo p sources u e) : (clauseOf runtime outDir h e).localName.toList <:+:
      (referenceOf runtime outDir h u).text.toList := by
  cases href with
  | entity => exact List.infix_rfl
  | request hasks => exact hasks.infix

theorem mem_ownerImports {c : ImportClause} :
    c ∈ ownerImports outDir h ↔
      RunsRoutines h ∧ classImport outDir h.ownerHome h.ownerName = c := by
  unfold ownerImports RunsRoutines
  cases h.migration with
  | recreate => simp
  | upgrade plan =>
    cases hempty : plan.isEmpty with
    | true => simp [hempty]
    | false =>
      dsimp only
      rw [if_neg (ne_true_of_eq_false hempty), List.mem_singleton]
      constructor
      · rintro rfl
        exact ⟨⟨plan, rfl, hempty⟩, rfl⟩
      · exact fun ⟨_, heq⟩ => heq.symm

/-- The clauses that a helper's module imports are those of the entities that are used and of what
the used id types ask for. -/
theorem mem_imports_iff_hasReason {c : ImportClause} :
    c ∈ imports runtime outDir h ↔
      (∃ e, HasReason runtime h (.entity e) ∧ clauseOf runtime outDir h e = c) ∨
        ∃ t ∈ h.tables, ∃ r ∈ t.idType.imports, clauseOf runtime outDir h (.request r) = c := by
  rw [mem_imports, asked, List.mem_append, List.mem_flatMap, mem_ownerImports]
  constructor
  · rintro (⟨name, hname, heq⟩ | (⟨t, ht, hc⟩ | ⟨hruns, heq⟩) | ⟨hwrites, rfl⟩)
    · exact .inl ⟨.runtime name, hname, heq⟩
    · rcases List.mem_cons.1 hc with rfl | hc
      · exact .inl ⟨.table t, ht, rfl⟩
      · obtain ⟨r, hr, heq⟩ := List.mem_map.1 hc
        exact .inr ⟨t, ht, r, hr, heq⟩
    · exact .inl ⟨.owner, hruns, heq⟩
    · exact .inl ⟨.config, hwrites, rfl⟩
  · rintro (⟨e, hreason, heq⟩ | ⟨t, ht, r, hr, heq⟩)
    · cases e with
      | runtime name => exact .inl ⟨name, hreason, heq⟩
      | table t => exact .inr (.inl (.inl ⟨t, hreason, List.mem_cons.2 (.inl heq.symm)⟩))
      | owner => exact .inr (.inl (.inr ⟨hreason, heq⟩))
      | config => exact .inr (.inr ⟨hreason, heq.symm⟩)
      | request r => exact hreason.elim
    · have hc : c ∈ tableImports outDir t := List.mem_cons_of_mem _ (List.mem_map.2 ⟨r, hr, heq⟩)
      exact .inr (.inl (.inl ⟨t, ht, hc⟩))

/-- What has a reason is used. -/
theorem mem_uses_of_hasReason {e : Entity} (hreason : HasReason runtime h (.entity e)) :
    .entity e ∈ uses runtime h := by
  cases e with
  | runtime name => exact runtime_mem_uses hreason
  | table t =>
    refine mem_uses_of_mem_accessorTypeUses hreason ?_
    exact List.mem_cons_of_mem _ List.mem_cons_self
  | owner => exact owner_mem_uses hreason
  | config => exact config_mem_uses hreason
  | request r => exact hreason.elim

/-- The clauses that a helper's module imports are those of the entities that its class refers to,
when what its id types import is what they ask for. -/
theorem mem_imports_iff_refersTo {p : Program} {sources : List (Path × String × Node)}
    (hasks : ∀ t ∈ h.tables, ∀ r, r ∈ t.idType.imports ↔ t.AsksFor p sources r)
    {c : ImportClause} :
    c ∈ imports runtime outDir h ↔ ∃ u ∈ uses runtime h, ∃ e, RefersTo p sources u e ∧
      clauseOf runtime outDir h e = c := by
  rw [mem_imports_iff_hasReason]
  constructor
  · rintro (⟨e, hreason, heq⟩ | ⟨t, ht, r, hr, heq⟩)
    · exact ⟨.entity e, mem_uses_of_hasReason hreason, e, .entity e, heq⟩
    · have hused : .idType t ∈ uses runtime h := by
        refine mem_uses_of_mem_accessorTypeUses ht ?_
        exact List.mem_cons_of_mem _ (List.mem_cons_of_mem _ List.mem_cons_self)
      exact ⟨.idType t, hused, .request r, .request ((hasks t ht r).1 hr), heq⟩
  · rintro ⟨u, hu, e, href, heq⟩
    have hreason := hasReason_of_mem_uses u hu
    cases href with
    | entity => exact .inl ⟨e, hreason, heq⟩
    | @request t r hrequest => exact .inr ⟨t, hreason, r, (hasks t hreason r).2 hrequest, heq⟩

end HelperModule

open HelperModule

/-! ## The config writer -/

/-- The config writer of a helper is used exactly when the file that exports it is generated. -/
theorem config_mem_uses_iff {p : Program} {registry : Registry} {runtime : RuntimeNames}
    {h : Helper} (hmem : h ∈ (Validation.ofProgram p registry runtime).helpers) (outDir : Path) :
    .entity .config ∈ uses runtime h ↔
      ∃ f ∈ generate runtime outDir (Validation.ofProgram p registry runtime).helpers,
        f.fileName = Naming.moduleFile h.configName ∧ Exports f.content h.configName := by
  constructor
  · intro hused
    have hwrites : h.writesConfig = true := hasReason_of_mem_uses _ hused
    have hm : configModule runtime outDir h ∈ modulesOf runtime outDir h := by
      simp [modulesOf, hwrites]
    exact ⟨fileOf h (configModule runtime outDir h),
      List.mem_flatMap.2 ⟨h, hmem, List.mem_map_of_mem hm⟩, rfl, exports_render _⟩
  · rintro ⟨f, hf, hname, -⟩
    obtain ⟨k, hk, m, hm, rfl⟩ := exists_module_of_mem_generate hf
    have hclass : m.exported.name = h.configName := Naming.moduleFile_injective hname
    rcases List.mem_cons.1 hm with rfl | hm
    · exact absurd hclass.symm (Naming.configClass_ne_helperClass _ _)
    · split at hm
      · rename_i hwrites
        obtain rfl := List.mem_singleton.1 hm
        obtain rfl := Validation.eq_of_sanitized_eq_of_mem hk hmem (Naming.configClass_inj.1 hclass)
        exact config_mem_uses hwrites
      · cases hm

section

variable {p : Program} {sources : List (Path × String × Node)} {runtime : RuntimeNames}
  {outDir : Path} {h : Helper} {bound : List ImportClause}
  (hbound : ∀ c, c ∈ bound ↔
    ∃ u ∈ uses runtime h, ∃ e, RefersTo p sources u e ∧ clauseOf runtime outDir h e = c)

include hbound

/-- The clause of the config writer is bound for a use that refers to it when there is such a
use. -/
theorem exists_config_clause_iff :
    (∃ c ∈ bound, c = .same ("./" ++ h.configName) h.configName ∧
        ∃ u ∈ uses runtime h, RefersTo p sources u .config) ↔
      .entity .config ∈ uses runtime h := by
  constructor
  · rintro ⟨-, -, -, u, hu, href⟩
    cases href
    exact hu
  · intro hused
    have hclause := (hbound (configClause h)).2 ⟨_, hused, .config, .entity .config, rfl⟩
    exact ⟨configClause h, hclause, rfl, _, hused, .entity .config⟩

/-- What is bound from the module of the config writer is bound for a use of it, or for one of
something else in a module of that path. -/
theorem exists_config_specifier_iff :
    (∃ c ∈ bound, c.specifier = "./" ++ h.configName) ↔
      .entity .config ∈ uses runtime h ∨
        ∃ u ∈ uses runtime h, ∃ e, RefersTo p sources u e ∧ e ≠ .config ∧
          (clauseOf runtime outDir h e).specifier = "./" ++ h.configName := by
  constructor
  · rintro ⟨c, hc, hspecifier⟩
    obtain ⟨u, hu, e, href, rfl⟩ := (hbound c).1 hc
    by_cases hconfig : e = .config
    · subst hconfig
      cases href
      exact .inl hu
    · exact .inr ⟨u, hu, e, href, hconfig, hspecifier⟩
  · rintro (hused | ⟨u, hu, e, href, -, hspecifier⟩)
    · exact ⟨configClause h, (hbound _).2 ⟨_, hused, .config, .entity .config, rfl⟩, rfl⟩
    · exact ⟨_, (hbound _).2 ⟨u, hu, e, href, rfl⟩, hspecifier⟩

end

/-! ## The imports of a program's helpers -/

/-- Every file that can be read is well named, and in a program of well named files the references
of a helper's class are those of its uses, one after the other.  The clauses of its import block
are those of the entities that the uses refer to, whose local names are printed there; a use that
refers to no entity is the class itself, a name of a method of its own, or a global name.  The
clause of the config writer is there for a use that refers to the config writer exactly when the
file that exports it is generated too; and something is imported from the module of the config
writer exactly when that file is generated, or when a use refers to something else that lies in a
module of that path. -/
theorem imports_iff_used :
    (∀ path text f, Source.SourceFile.read path text = .ok f → f.WellNamed) ∧
    ∀ (runtime : RuntimeNames) (dir outDir : Path) (sources : List (Path × String × Node)),
      let files := sources.map fun s => Source.ofTree s.1 s.2.1 s.2.2
      let p := Program.ofSources dir files
      let helpers := (Validation.ofSources runtime dir files).helpers
      (∀ f ∈ files, f.WellNamed) → ∀ h ∈ helpers,
        let m := helperModule runtime outDir h
        m.exported.references = (uses runtime h).map (referenceOf runtime outDir h) ∧
        (∀ name, .own name ∈ uses runtime h →
          name = h.className ∨ name ∈ localNames ∨ name ∈ globalNames) ∧
        (∀ c, c ∈ ImportBlock.bound m.imports ↔
          ∃ u ∈ uses runtime h, ∃ e, RefersTo p sources u e ∧ clauseOf runtime outDir h e = c) ∧
        (∀ u e, RefersTo p sources u e → (clauseOf runtime outDir h e).localName.toList <:+:
          (referenceOf runtime outDir h u).text.toList) ∧
        ((∃ c ∈ ImportBlock.bound m.imports, c = .same ("./" ++ h.configName) h.configName ∧
            ∃ u ∈ uses runtime h, RefersTo p sources u .config) ↔
          ∃ f ∈ generate runtime outDir helpers,
            f.fileName = h.configName ++ ".ts" ∧ Exports f.content h.configName) ∧
        ((∃ c ∈ ImportBlock.bound m.imports, c.specifier = "./" ++ h.configName) ↔
          (∃ f ∈ generate runtime outDir helpers,
            f.fileName = h.configName ++ ".ts" ∧ Exports f.content h.configName) ∨
          ∃ u ∈ uses runtime h, ∃ e, RefersTo p sources u e ∧ e ≠ .config ∧
            (clauseOf runtime outDir h e).specifier = "./" ++ h.configName) := by
  refine ⟨fun _ _ _ => Source.SourceFile.wellNamed_of_read, ?_⟩
  intro runtime dir outDir sources files p helpers hwell h hmem m
  have hblock : ∀ c, c ∈ ImportBlock.bound m.imports ↔
      ∃ u ∈ uses runtime h, ∃ e, RefersTo p sources u e ∧ clauseOf runtime outDir h e = c := by
    intro c
    rw [(ImportBlock.bound_perm m.imports).mem_iff, ImportBlock.mem_clauses]
    refine mem_imports_iff_refersTo fun t ht => ?_
    exact mem_imports_iff_asksFor hwell t (Validation.mem_tables_of_mem_helpers hmem ht)
  have hfile := config_mem_uses_iff hmem outDir
  refine ⟨references_helperModule runtime outDir h, fun name hname => hasReason_of_mem_uses _ hname,
    hblock, fun u e href => href.infix, (exists_config_clause_iff hblock).trans hfile, ?_⟩
  exact (exists_config_specifier_iff hblock).trans (or_congr_left hfile)

/-- The tree of a helper with one table and a config writer. -/
def notesTree : Node :=
  let mark := token .plain .mark
  let string (column : Nat) (text : String) : Node := .branch .value .string
    [mark " " column "\"", token .plain .fragment "" (column + 1) text,
      mark "" (column + 1 + text.length) "\""]
  let option (column : Nat) (key : String) (value : Node) : Node := .branch .plain .pair
    [token .key .propertyName " " column key, mark "" (column + key.length) ":", value]
  let tables : Node := .branch .value .array
    [mark " " 33 "[", token .plain .name "" 34 "Session", mark "" 41 "]"]
  let options : Node := .branch .plain .object
    [mark "" 8 "\x7b", option 10 "name" (string 16 "notes"), mark "" 23 ",",
      option 25 "tables" tables, mark "" 42 ",",
      option 44 "withConfigUtil" (token .value .true " " 60 "true"), mark " " 65 "\x7d"]
  let decorator : Node := .branch .plain .decorator
    [mark "" 0 "@", .branch .plain .call
      [token .function .name "" 1 "Helper",
        .branch .arguments .arguments [mark "" 7 "(", options, mark "" 66 ")"]]]
  .branch .plain .program
    [.branch .plain .classDeclaration
      [decorator, mark " " 68 "class", token .name .typeName " " 74 "Notes",
        .branch .plain .classBody [mark " " 80 "\x7b", mark "" 81 "\x7d"]]]

/-- The text of that helper. -/
def notesText : String :=
  "@Helper(\x7b name: \"notes\", tables: [Session], withConfigUtil: true \x7d) class Notes \x7b\x7d"

/-- A helper imports the type that the id of its table is an array of, and its config writer. -/
theorem imports_iff_used_array :
    let type : Node := .branch .plain .arrayType
      [token .plain .typeName " " 96 "Uuid", token .plain .mark "" 100 "[",
        token .plain .mark "" 101 "]"]
    let sources := [(⟨"/src/notes.ts"⟩, notesText, notesTree),
      (⟨"/src/session.ts"⟩, sessionText "Uuid[]", sessionTree type)]
    let files := sources.map fun s => Source.ofTree s.1 s.2.1 s.2.2
    let p := Program.ofSources ⟨"/src"⟩ files
    let helpers := (Validation.ofSources {} ⟨"/src"⟩ files).helpers
    (∀ s ∈ sources, String.ofList s.2.2.fullText = s.2.1) ∧ (∀ f ∈ files, f.WellNamed) ∧
      ∃ h ∈ helpers, h.name = "notes" ∧
        (∃ u ∈ uses {} h, ∃ e, RefersTo p sources u e ∧
          clauseOf {} ⟨"/out"⟩ h e = ⟨"../src/ids", "Uuid", "Uuid"⟩) ∧
        ∃ f ∈ generate {} ⟨"/out"⟩ helpers, f.fileName = h.configName ++ ".ts" ∧
          Exports f.content h.configName := by
  intro type sources files p helpers
  have hwell : ∀ f ∈ files, f.WellNamed := by
    have hnames : ∀ f ∈ files,
        (∀ i ∈ f.imports, ∀ n ∈ i.names, n.name = wholeModule → '.' ∉ n.localName.toList) ∧
          ∀ name ∈ f.classes.map (·.name) ++ f.typeNames, name ≠ wholeModule := by
      decide +kernel
    exact fun f hf => ⟨(hnames f hf).1, (hnames f hf).2⟩
  obtain ⟨h, hmem, hname, hwrites, himported⟩ : ∃ h ∈ helpers, h.name = "notes" ∧
      h.writesConfig = true ∧
      ⟨"../src/ids", "Uuid", "Uuid"⟩ ∈ ImportBlock.bound (helperModule {} ⟨"/out"⟩ h).imports := by
    decide +kernel
  obtain ⟨-, -, hblock, -, hfile, -⟩ := imports_iff_used.2 {} ⟨"/src"⟩ ⟨"/out"⟩ sources hwell h hmem
  have hused : .entity .config ∈ uses {} h := config_mem_uses hwrites
  have hbound := (hblock (configClause h)).2 ⟨_, hused, .config, .entity .config, rfl⟩
  exact ⟨by decide +kernel, hwell, h, hmem, hname, (hblock _).1 himported,
    hfile.1 ⟨configClause h, hbound, rfl, _, hused, .entity .config⟩⟩

/-- An id type that is imported from where the module of a config writer would be.  The helper wants
no config writer and none is generated, yet the module of that path is imported. -/
theorem config_module_imported_for_idType :
    let field : Source.Field :=
      ⟨"id", some ⟨"Uuid", .reference "Uuid" []⟩, false,
        [⟨"DatabaseField", none, [.object default [("id", .boolean default true)]], default⟩],
        default⟩
    let row : Source.SourceFile :=
      ⟨⟨"/src/row.ts"⟩, "",
        [⟨[⟨"Uuid", none⟩], "./generated/NotesDatabaseConfigUtil", default⟩],
        [⟨"Row", none, [⟨"DatabaseTable", none, [], default⟩], [field], [], false, true, default⟩],
        []⟩
    let options : Source.Expr :=
      .object default [("name", .string default "notes"),
        ("tables", .array default [.name default "Row"])]
    let notes : Source.SourceFile :=
      ⟨⟨"/src/notes.ts"⟩, "", [⟨[⟨"Row", none⟩], "./row", default⟩],
        [⟨"Notes", none, [⟨"Helper", none, [options], default⟩], [], [], false, true, default⟩], []⟩
    let checked := Validation.ofSources {} ⟨"/src"⟩ [row, notes]
    let outDir : Path := ⟨"/src/generated"⟩
    checked.diagnostics.map (·.complaint) = [] ∧ ∃ h ∈ checked.helpers,
      ¬ ((∃ c ∈ ImportBlock.bound (helperModule {} outDir h).imports,
            c.specifier = "./" ++ h.configName) ↔
          ∃ f ∈ generate {} outDir checked.helpers,
            f.fileName = h.configName ++ ".ts" ∧ Exports f.content h.configName) := by
  intro field row options notes checked outDir
  obtain ⟨h, hmem, himported, hunwritten⟩ : ∃ h ∈ checked.helpers,
      (∃ c ∈ ImportBlock.bound (helperModule {} outDir h).imports,
        c.specifier = "./" ++ h.configName) ∧
      ∀ f ∈ generate {} outDir checked.helpers, f.fileName ≠ h.configName ++ ".ts" := by
    decide +kernel
  refine ⟨by decide +kernel, h, hmem, fun hiff => ?_⟩
  obtain ⟨f, hf, hname, -⟩ := hiff.1 himported
  exact hunwritten f hf hname

end Emit

end DaoGen
