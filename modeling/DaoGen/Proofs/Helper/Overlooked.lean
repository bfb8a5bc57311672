import DaoGen.Proofs.Emit.FileOrder
import DaoGen.Proofs.Helper.Accounting
import DaoGen.Proofs.Program.Extension
import DaoGen.Proofs.Schema.References
set_option autoImplicit false

/-!
# Source files that make no difference

A source file is overlooked by others when nothing in it is decorated and no parent and no entry of
a list of tables in the others stands for one of its classes (`Overlooks`).  Such a file declares
nothing, and wherever it stands among the others, these are validated as without it
(`validated_without`).
-/

namespace DaoGen

open DaoGen.Schema DaoGen.Validation
open DaoGen.Source (SourceFile SourceClass)

/-- Some source files say what they say whether another one is there or not. -/
structure Overlooks (files : List SourceFile) (g : SourceFile) : Prop where
  undecorated : ∀ c ∈ g.classes, c.decorators = [] ∧ ∀ m ∈ c.methods, m.decorators = []
  unreached : ∀ f ∈ files, ∀ c ∈ f.classes, ∀ written ∈ c.classNames, ∀ other ∈ g.classes,
    (ScannedFile.ofSource f).reaches written (.ofSource g) other.name = false

instance (files : List SourceFile) (g : SourceFile) : Decidable (Overlooks files g) :=
  decidable_of_iff
    ((∀ c ∈ g.classes, c.decorators = [] ∧ ∀ m ∈ c.methods, m.decorators = []) ∧
      ∀ f ∈ files, ∀ c ∈ f.classes, ∀ written ∈ c.classNames, ∀ other ∈ g.classes,
        (ScannedFile.ofSource f).reaches written (.ofSource g) other.name = false)
    ⟨fun h => ⟨h.1, h.2⟩, fun h => ⟨h.undecorated, h.unreached⟩⟩

namespace Program

variable {dir : Path} {files more : List SourceFile}

/-! ## The classes of more files -/

/-- The classes of more files behind some files. -/
def laterClasses (files more : List SourceFile) : List (FileId × SourceFile × SourceClass) :=
  (more.zipIdx files.length).flatMap fun (f, file) => f.classes.map fun c => (file, f, c)

theorem sourceClasses_append (files more : List SourceFile) :
    sourceClasses (files ++ more) = sourceClasses files ++ laterClasses files more := by
  rw [sourceClasses, List.zipIdx_append, List.flatMap_append, Nat.zero_add]
  rfl

theorem mem_laterClasses {file : FileId} {g : SourceFile} {c : SourceClass}
    (h : (file, g, c) ∈ laterClasses files more) :
    g ∈ more ∧ c ∈ g.classes ∧ (files ++ more)[file]? = some g := by
  have hall : (file, g, c) ∈ sourceClasses (files ++ more) := by
    rw [sourceClasses_append]
    exact List.mem_append_right _ h
  obtain ⟨hget, hc⟩ := mem_sourceClasses hall
  obtain ⟨x, hx, hg⟩ := List.mem_flatMap.1 h
  obtain ⟨_, -, heq⟩ := List.mem_map.1 hg
  obtain ⟨-, rfl, -⟩ := heq
  obtain ⟨-, -, hmore⟩ := List.mem_zipIdx hx
  exact ⟨hmore ▸ List.getElem_mem _, hc, hget⟩

theorem lt_of_mem_sourceClasses (dir : Path) {x : FileId × SourceFile × SourceClass}
    (h : x ∈ sourceClasses files) : x.1 < (ofClasses dir files).files.length := by
  have hget := (List.getElem?_eq_some_iff.1 (mem_sourceClasses h).1).1
  simpa [ofClasses, ofFiles] using hget

/-- What is looked up in files that overlook some more reaches none of their classes. -/
theorem passes_of_overlooks (h : ∀ g ∈ more, Overlooks files g) {file : FileId} {f : SourceFile}
    {c : SourceClass} (hmem : (file, f, c) ∈ sourceClasses files) {written : String}
    (hwritten : written ∈ c.classNames) :
    (ofClasses dir (files ++ more)).Passes (sourceClasses files).length file written := by
  obtain ⟨hfile, hc⟩ := mem_sourceClasses hmem
  intro other hother
  rw [classes_ofClasses, ← List.map_drop, sourceClasses_append, List.drop_left] at hother
  obtain ⟨⟨file', g, c'⟩, hlater, rfl⟩ := List.mem_map.1 hother
  obtain ⟨hg, hc', hfile'⟩ := mem_laterClasses hlater
  have hfirst : (files ++ more)[file]? = some f := by
    rw [List.getElem?_append_left (List.getElem?_eq_some_iff.1 hfile).1, hfile]
  show ((ofClasses dir (files ++ more)).fileAt file).reaches written
    ((ofClasses dir (files ++ more)).fileAt file') c'.name = false
  rw [fileAt_ofClasses _ hfirst, fileAt_ofClasses _ hfile']
  exact (h g hg).unreached f (List.mem_of_getElem? hfile) c hc written hwritten c' hc'

/-- Files that are overlooked can be added behind the others. -/
theorem extends_ofClasses (dir : Path) (h : ∀ g ∈ more, Overlooks files g) :
    Extends (ofClasses dir files) (ofClasses dir (files ++ more)) := by
  have hfiles : Extends (ofFiles dir files) (ofFiles dir (files ++ more)) :=
    ⟨⟨more.map .ofSource, List.map_append.symm⟩, List.nil_prefix,
      fun _ hc => absurd hc List.not_mem_nil, fun _ hc => absurd hc List.not_mem_nil⟩
  refine ⟨hfiles.files, ?_, ?_, ?_⟩
  · rw [classes_ofClasses, classes_ofClasses, sourceClasses_append, List.map_append]
    have hsame : ∀ x ∈ sourceClasses files,
        ScannedClass.ofSource (ofFiles dir (files ++ more)) x.1 x.2.1 x.2.2 =
          ScannedClass.ofSource (ofFiles dir files) x.1 x.2.1 x.2.2 :=
      fun x hx => hfiles.ofSource (lt_of_mem_sourceClasses dir hx) x.2.1 x.2.2
    rw [List.map_congr_left hsame]
    exact List.prefix_append _ _
  · intro c hc
    obtain ⟨x, hx, rfl⟩ := List.mem_map.1 hc
    exact lt_of_mem_sourceClasses dir hx
  · intro c hc written hparent
    obtain ⟨x, hx, rfl⟩ := List.mem_map.1 hc
    have hname : written ∈ x.2.2.classNames :=
      List.mem_append_left _ (Option.mem_toList.2 hparent)
    rw [length_ofClasses]
    exact passes_of_overlooks h hx hname

/-- Where nothing is decorated nothing is declared. -/
theorem declarationsOf_of_undecorated {p : Program} {owner : ClassId} {file : FileId}
    {f : SourceFile} {c : SourceClass} (hclass : c.decorators = [])
    (hmethods : ∀ m ∈ c.methods, m.decorators = []) : p.declarationsOf owner file f c = [] := by
  rw [declarationsOf, hclass]
  refine List.flatMap_eq_nil_iff.2 fun m hm => ?_
  rw [hmethods m hm]
  rfl

/-- They declare nothing, and the others declare the same. -/
theorem declarations_append (dir : Path) (h : ∀ g ∈ more, Overlooks files g) :
    (ofSources dir (files ++ more)).declarations = (ofSources dir files).declarations := by
  have hextends := extends_ofClasses dir h
  have hdeclarations : ∀ fs : List SourceFile, (ofSources dir fs).declarations =
      (sourceClasses fs).zipIdx.flatMap fun x =>
        declarationsOf (ofClasses dir fs) x.2 x.1.1 x.1.2.1 x.1.2.2 := fun _ => rfl
  rw [hdeclarations, hdeclarations, sourceClasses_append, List.zipIdx_append, List.flatMap_append]
  have hfirst : ∀ x ∈ (sourceClasses files).zipIdx,
      declarationsOf (ofClasses dir (files ++ more)) x.2 x.1.1 x.1.2.1 x.1.2.2 =
        declarationsOf (ofClasses dir files) x.2 x.1.1 x.1.2.1 x.1.2.2 := by
    intro x hx
    have hmem : x.1 ∈ sourceClasses files :=
      List.mem_of_getElem? (List.mem_zipIdx_iff_getElem?.1 hx)
    refine hextends.declarationsOf (lt_of_mem_sourceClasses dir hmem) x.2
      fun written hwritten => ?_
    rw [length_ofClasses]
    exact passes_of_overlooks h hmem hwritten
  have hlater : ∀ x ∈ (laterClasses files more).zipIdx (0 + (sourceClasses files).length),
      declarationsOf (ofClasses dir (files ++ more)) x.2 x.1.1 x.1.2.1 x.1.2.2 = [] := by
    intro x hx
    obtain ⟨-, -, hget⟩ := List.mem_zipIdx hx
    have hmem : x.1 ∈ laterClasses files more := hget ▸ List.getElem_mem _
    obtain ⟨hg, hc, -⟩ := mem_laterClasses hmem
    obtain ⟨hclass, hmethods⟩ := (h _ hg).undecorated _ hc
    exact declarationsOf_of_undecorated hclass hmethods
  rw [List.flatMap_eq_nil_iff.2 hlater, List.append_nil]
  exact List.flatMap_congr hfirst

theorem extends_ofSources (dir : Path) (h : ∀ g ∈ more, Overlooks files g) :
    Extends (ofSources dir files) (ofSources dir (files ++ more)) :=
  have hextends := extends_ofClasses dir h
  ⟨hextends.files, hextends.classes, hextends.inFiles, hextends.parents⟩

theorem lt_of_mem_tables {id : ClassId} (hid : id ∈ (ofSources dir files).tables) :
    id < (ofSources dir files).classes.length := by
  obtain ⟨declaration, hmem, htable⟩ := List.mem_filterMap.1 hid
  obtain ⟨owner, hlt, file, f, c, -, hdeclared⟩ := exists_of_mem_declarations hmem
  rcases mem_declarationsOf hdeclared with rfl | ⟨decorator, -, rfl⟩ | ⟨m, -, decorator, -, rfl⟩
  · cases htable
    exact hlt
  · cases htable
  · cases htable

end Program

/-! ## Checking the same declarations -/

namespace Extends

variable {p q : Program}

theorem homeOf (h : Extends p q) {id : ClassId} (hid : id < p.classes.length) :
    q.homeOf id = p.homeOf id := by
  rw [Program.homeOf_def, Program.homeOf_def, Program.fileOf, Program.fileOf, h.classAt hid,
    h.fileAt (h.inFiles _ (Program.classAt_mem hid))]

theorem ownIdType (h : Extends p q) {id : ClassId} (hid : id < p.classes.length) :
    Schema.ownIdType q id = Schema.ownIdType p id := by
  have hfile := h.inFiles _ (Program.classAt_mem hid)
  rw [Schema.ownIdType_def, Schema.ownIdType_def, h.classAt hid, h.fileAt hfile]

theorem idTypeOf (h : Extends p q) {id : ClassId} (hid : id < p.classes.length) :
    Schema.idTypeOf q id = Schema.idTypeOf p id := by
  unfold Schema.idTypeOf Program.ancestry
  rw [h.ancestryAfter [] hid]
  have hchain : ∀ c ∈ p.ancestryAfter [] id, Schema.ownIdType q c = Schema.ownIdType p c :=
    fun c hc => h.ownIdType (lt_of_mem_ancestryAfter hid hc)
  generalize p.ancestryAfter [] id = chain at hchain
  induction chain with
  | nil => rfl
  | cons c rest ih =>
    rw [List.findSome?_cons, List.findSome?_cons, hchain c List.mem_cons_self,
      ih fun c hc => hchain c (List.mem_cons_of_mem _ hc)]

theorem table? (h : Extends p q) {id : ClassId} (hid : id < p.classes.length) :
    Registry.table? q id = Registry.table? p id := by
  have htableOf : Registry.tableOf q id = Registry.tableOf p id := by
    funext found
    rw [Registry.tableOf_def, Registry.tableOf_def, h.classAt hid, h.homeOf hid]
  rw [Registry.table?, Registry.table?, h.idTypeOf hid, htableOf]

/-- A declaration gives the same helper or the same complaints. -/
theorem accept_result (h : Extends p q) {d : HelperDeclaration} (hd : d.owner < p.classes.length)
    (registry : Registry) (runtime : RuntimeNames) (routines : List RoutineDeclaration) :
    (d.accept q registry runtime routines).result =
      (d.accept p registry runtime routines).result := by
  have hname : d.acceptName q = d.acceptName p := by
    rw [HelperDeclaration.acceptName_def, HelperDeclaration.acceptName_def, h.classAt hd]
  have howner : d.ownerDiagnostics q = d.ownerDiagnostics p := by
    rw [HelperDeclaration.ownerDiagnostics_def, HelperDeclaration.ownerDiagnostics_def,
      h.classAt hd, h.canMake hd]
  have hproblems : d.diagnostics q registry runtime routines =
      d.diagnostics p registry runtime routines := by
    rw [HelperDeclaration.diagnostics_def, HelperDeclaration.diagnostics_def, howner, hname]
  rw [HelperDeclaration.accept_def, HelperDeclaration.accept_def, hname, hproblems, h.classAt hd,
    h.homeOf hd]
  unfold HelperDeclaration.conclude
  split
  · split <;> rfl
  · rfl

section

variable (h : Extends p q) (hdeclarations : q.declarations = p.declarations)

include h hdeclarations

/-- The registry holds the same tables. -/
theorem registry_eq (htables : ∀ id ∈ p.tables, id < p.classes.length) :
    Registry.ofProgram q = Registry.ofProgram p := by
  have hids : Registry.tableIds q = Registry.tableIds p := by
    unfold Registry.tableIds Program.tables
    rw [hdeclarations]
  have htable : (Registry.ofProgram q).tables = (Registry.ofProgram p).tables := by
    rw [Registry.tables_ofProgram, Registry.tables_ofProgram, hids]
    refine List.filterMap_congr fun id hid => h.table? (htables id ?_)
    exact ((Registry.tableIds_spec p).2 id).1 hid
  exact congrArg Registry.mk htable

theorem results_outcomes (registry : Registry) (runtime : RuntimeNames) {claims : Claims}
    {ds : List HelperDeclaration} (hds : ∀ d ∈ ds, d.owner < p.classes.length) :
    (outcomes q registry runtime claims ds).map (·.result) =
      (outcomes p registry runtime claims ds).map (·.result) := by
  induction ds generalizing claims with
  | nil => rfl
  | cons d rest ih =>
    have hd := hds d List.mem_cons_self
    have hroutines : routinesOf q d.owner = routinesOf p d.owner := by
      unfold routinesOf Program.routines
      rw [hdeclarations]
    have hclaim : claim q claims d = claim p claims d := by
      unfold claim
      rw [h.classAt hd]
    have hduplicate : duplicate? q claims d = duplicate? p claims d := by
      unfold duplicate?
      rw [h.classAt hd]
    have hone : (outcomeOf q registry runtime claims d).result =
        (outcomeOf p registry runtime claims d).result := by
      unfold outcomeOf
      rw [hduplicate, hroutines]
      split
      · rfl
      · exact h.accept_result hd registry runtime _
    rw [outcomes_cons, outcomes_cons, List.map_cons, List.map_cons, hone, hclaim,
      ih fun e he => hds e (List.mem_cons_of_mem d he)]

/-- Validation gives the same helpers and the same complaints. -/
theorem ofProgram_eq (runtime : RuntimeNames) (htables : ∀ id ∈ p.tables, id < p.classes.length)
    (hhelpers : ∀ d ∈ p.helpers, d.owner < p.classes.length) :
    (ofProgram q (Registry.ofProgram q) runtime).helpers =
        (ofProgram p (Registry.ofProgram p) runtime).helpers ∧
      (ofProgram q (Registry.ofProgram q) runtime).diagnostics =
        (ofProgram p (Registry.ofProgram p) runtime).diagnostics := by
  have hsame : q.helpers = p.helpers ∧ q.routines = p.routines := by
    unfold Program.helpers Program.routines
    rw [hdeclarations]
    exact ⟨rfl, rfl⟩
  have hresults : (outcomes q (Registry.ofProgram p) runtime [] p.helpers).map (·.result) =
      (outcomes p (Registry.ofProgram p) runtime [] p.helpers).map (·.result) :=
    h.results_outcomes hdeclarations (Registry.ofProgram p) runtime hhelpers
  have hstrays : strays q = strays p := by
    unfold strays routineOwners routinesOf isHelperClass
    rw [hsame.1, hsame.2]
  rw [h.registry_eq hdeclarations htables]
  rw [ofProgram_def, ofProgram_def]
  dsimp only [ofOutcomes]
  rw [hsame.1, hresults, hstrays]
  exact ⟨rfl, rfl⟩

end

end Extends

/-! ## Validations without complaints -/

namespace Validation

variable {p : Program} {registry : Registry} {runtime : RuntimeNames}

/-- Declarations that are all accepted claim different names, none of which was claimed. -/
theorem nodup_of_accepted {claims : Claims} {ds : List HelperDeclaration}
    (h : ∀ result ∈ (outcomes p registry runtime claims ds).map (·.result),
      ∃ helper, result = .ok helper) :
    (ds.filterMap claimedName).Nodup ∧
      ∀ name ∈ ds.filterMap claimedName, claims.lookup name = none := by
  induction ds generalizing claims with
  | nil => exact ⟨List.nodup_nil, fun name hname => absurd hname List.not_mem_nil⟩
  | cons d rest ih =>
    rw [outcomes_cons, List.map_cons] at h
    obtain ⟨helper, hresult⟩ := h _ List.mem_cons_self
    obtain ⟨haccept, hfree⟩ := claimed_of_outcomeOf hresult
    obtain ⟨hnodup, hrest⟩ := ih fun result hmem => h result (List.mem_cons_of_mem _ hmem)
    have hname := claimedName_of_accept haccept
    rw [List.filterMap_cons_some hname]
    refine ⟨List.nodup_cons.2 ⟨fun hmem => ?_, hnodup⟩, fun name hmem => ?_⟩
    · exact (lookup_claim_eq_none_iff.1 (hrest _ hmem)).2 hname
    · rcases List.mem_cons.1 hmem with rfl | hmem
      · exact hfree
      · exact (lookup_claim_eq_none_iff.1 (hrest name hmem)).1

/-- Without a complaint no class name is claimed twice. -/
theorem nodup_of_diagnostics_nil (h : (ofProgram p registry runtime).diagnostics = []) :
    (p.helpers.filterMap claimedName).Nodup := by
  have hsettled : List.Forall₂ (Settled p registry runtime) p.helpers
      ((outcomes p registry runtime [] p.helpers).map (·.result)) := settled_outcomes [] p.helpers
  have hflatten := (List.append_eq_nil_iff.1 h).2
  have hnone : HelperDeclaration.errors
      ((outcomes p registry runtime [] p.helpers).map (·.result)) = [] := by
    refine List.eq_nil_iff_forall_not_mem.2 fun es hes => ?_
    exact (of_mem_errors hsettled es hes).1 (List.flatten_eq_nil_iff.1 hflatten es hes)
  have haccepted : ∀ result ∈ (outcomes p registry runtime [] p.helpers).map (·.result),
      ∃ helper, result = .ok helper := by
    intro result hmem
    rw [HelperDeclaration.eq_map_values hnone] at hmem
    obtain ⟨helper, -, rfl⟩ := List.mem_map.1 hmem
    exact ⟨helper, rfl⟩
  exact (nodup_of_accepted haccepted).1

end Validation

/-! ## Overlooked files among others -/

/-- The registry holds as many tables under other indices. -/
theorem Reorders.length_tables {σ : FileId → FileId} {τ : ClassId → ClassId} {p q : Program}
    (h : Reorders σ τ p q) :
    (Registry.ofProgram q).tables.length = (Registry.ofProgram p).tables.length := by
  have hnodup : ∀ r : Program, (Registry.tableIds r).Nodup := fun r =>
    (Registry.tableIds_spec r).1.imp Nat.ne_of_lt
  have hids : ((Registry.tableIds p).map τ).Perm (Registry.tableIds q) := by
    refine (List.perm_ext_iff_of_nodup ((hnodup p).map h.classes.injective) (hnodup q)).2 ?_
    intro id
    rw [(Registry.tableIds_spec q).2, ← h.tables_perm.mem_iff, List.mem_map, List.mem_map]
    simp only [(Registry.tableIds_spec p).2]
  have hperm := hids.filterMap (Registry.table? q)
  have hmap : Registry.table? q ∘ τ = Option.map (·.rename τ) ∘ Registry.table? p :=
    funext h.toRenames.table?
  rw [List.filterMap_map, hmap, Function.comp_def, ← List.map_filterMap] at hperm
  rw [Registry.tables_ofProgram, Registry.tables_ofProgram, ← hperm.length_eq,
    List.length_map]

/-- Reordered programs without complaints are validated alike. -/
theorem Reorders.diagnostics_nil_iff {σ : FileId → FileId} {τ : ClassId → ClassId}
    {p q : Program} (h : Reorders σ τ p q) (runtime : RuntimeNames)
    (howner : ∀ d ∈ p.helpers, d.owner < p.classes.length) :
    (ofProgram q (Registry.ofProgram q) runtime).diagnostics = [] ↔
      (ofProgram p (Registry.ofProgram p) runtime).diagnostics = [] := by
  constructor
  · intro hnone
    have hnodup := h.claimedNames_perm.nodup_iff.2 (nodup_of_diagnostics_nil hnone)
    have hperm := (h.ofProgram_same runtime howner hnodup).2
    rw [hnone] at hperm
    exact hperm.eq_nil
  · intro hnone
    have hperm := (h.ofProgram_same runtime howner (nodup_of_diagnostics_nil hnone)).2
    rw [hnone] at hperm
    exact hperm.symm.eq_nil

/-- Source files are validated alike with and without files that they overlook, wherever these
stand: there is nothing to complain about in both cases or in neither, and if there is not the
same modules are generated. -/
theorem validated_without (runtime : RuntimeNames) (dir : Path)
    {files more all : List SourceFile} (hall : (files ++ more).Perm all)
    (h : ∀ g ∈ more, Overlooks files g) :
    ((ofSources runtime dir all).diagnostics = [] ↔
        (ofSources runtime dir files).diagnostics = []) ∧
      ((ofSources runtime dir files).diagnostics = [] →
        (∀ outDir, Emit.generate runtime outDir (ofSources runtime dir all).helpers =
            Emit.generate runtime outDir (ofSources runtime dir files).helpers) ∧
          (ofSources runtime dir all).helpers.length =
            (ofSources runtime dir files).helpers.length ∧
          (Registry.ofProgram (Program.ofSources dir all)).tables.length =
            (Registry.ofProgram (Program.ofSources dir files)).tables.length) := by
  have hextends := Program.extends_ofSources dir h
  have hdeclarations := Program.declarations_append dir h
  have htables : ∀ id ∈ (Program.ofSources dir files).tables,
      id < (Program.ofSources dir files).classes.length := fun _ => Program.lt_of_mem_tables
  obtain ⟨hhelpers, hdiagnostics⟩ := hextends.ofProgram_eq hdeclarations runtime htables
    fun _ => Program.owner_lt_of_mem_helpers
  have hregistry := hextends.registry_eq hdeclarations htables
  obtain ⟨σ, τ, hreorders⟩ := Program.exists_reorders_of_perm dir hall
  have howner : ∀ d ∈ (Program.ofSources dir (files ++ more)).helpers,
      d.owner < (Program.ofSources dir (files ++ more)).classes.length :=
    fun _ => Program.owner_lt_of_mem_helpers
  refine ⟨(hreorders.diagnostics_nil_iff runtime howner).trans (by rw [hdiagnostics]; rfl), ?_⟩
  intro hnone
  have hnodup := nodup_of_diagnostics_nil (hdiagnostics.trans hnone)
  have hsame := (hreorders.ofProgram_same runtime howner hnodup).1
  rw [hhelpers] at hsame
  have hall : (ofSources runtime dir all).helpers =
      (ofSources runtime dir files).helpers.map (·.rename τ) := hsame
  rw [hall]
  refine ⟨fun outDir => Emit.generate_rename runtime outDir τ _, List.length_map _, ?_⟩
  rw [hreorders.length_tables, hregistry]

/-- A helper class that extends nothing overlooks the module generated for it. -/
example :
    Overlooks
      [⟨⟨"/src/db.ts"⟩, "", [],
        [⟨"Db", none,
          [⟨"Helper", none, [.object default [("name", .string default "db")]], default⟩],
          [], [], false, true, default⟩], []⟩]
      ⟨⟨"/src/generated/DbDatabaseHelper.ts"⟩, "", [],
        [⟨"DbDatabaseHelper", some "OrmLiteSqliteOpenHelper", [], [], [], false, true, default⟩],
        []⟩ := by
  decide

end DaoGen
