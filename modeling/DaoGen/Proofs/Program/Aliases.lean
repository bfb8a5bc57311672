import DaoGen.Program.OfSources
set_option autoImplicit false

/-!
# Names under which files import the same thing

Two files may import one exported name of a module under different local names.  The local names
then stand for the same thing, also as the names of decorators.  As the name of a class, a local
name of what a scanned file exports is looked up under the exported name
(`resolveClass_of_binds_file`), but one of what a package exports is searched for as it is written
(`resolveClass_of_binds_package`).  Nothing but what a file imports stands for an export of a
package (`identityOf_eq_package_iff`).
-/

namespace DaoGen.Program

open DaoGen.Text (cutLast cutLast_eq_none_iff eq_of_cutLast cutLast_append afterLast)

/-- A file imports an exported name of a module under a local name. -/
structure Binds (p : Program) (file : FileId) (localName : String) (home : ModuleName)
    (name : String) : Prop where
  plain : '.' ∉ localName.toList
  imported : (p.fileAt file).imports.get? localName = some (.named home name)

/-- A written name stands for an exported name of a module that the file imports: under a local
name, or behind the local name of the module as a whole. -/
inductive Imports (p : Program) (file : FileId) (written : String) (home : ModuleName)
    (name : String) : Prop where
  | named (h : p.Binds file written home name) : Imports p file written home name
  | qualified {space : String} (hname : '.' ∉ name.toList) (hwritten : written = space ++ "." ++ name)
    (himported : (p.fileAt file).imports.get? space = some (.whole home)) :
    Imports p file written home name

/-- The class that a name stands for wherever it is declared. -/
def search (p : Program) (name : String) : Resolution :=
  .ofMatches (p.classesWhere fun c => c.name = name)

section

variable {p : Program} {file : FileId} {localName : String} {home : ModuleName} {name : String}

theorem identityOf_of_binds (h : p.Binds file localName home name) :
    p.identityOf file localName = some ⟨home, name⟩ := by
  rw [identityOf_def, ScannedFile.identityOf, cutLast_eq_none_iff.2 h.plain]
  dsimp only
  rw [h.imported]

/-- Only imported names stand for what a package exports. -/
theorem identityOf_eq_package_iff {written specifier : String} :
    p.identityOf file written = some ⟨.package specifier, name⟩ ↔
      p.Imports file written (.package specifier) name := by
  constructor
  · intro h
    rw [identityOf_def, ScannedFile.identityOf] at h
    split at h
    · rename_i qualifier exported hcut
      obtain ⟨hwritten, hexported⟩ := eq_of_cutLast hcut
      split at h
      · rename_i home himported
        cases h
        refine .qualified (by rwa [String.toList_ofList]) ?_ himported
        apply String.toList_injective
        simp [hwritten]
      · cases h
    · rename_i hcut
      split at h
      · rename_i home exported himported
        cases h
        exact .named ⟨cutLast_eq_none_iff.1 hcut, himported⟩
      · cases h
      · split at h
        · cases h
        · cases h
  · rintro (hbinds | ⟨hname, rfl, himported⟩)
    · exact identityOf_of_binds hbinds
    · rename_i space
      have hcut : cutLast '.' (space ++ "." ++ name).toList = some (space.toList, name.toList) := by
        rw [String.toList_append, String.toList_append, List.append_assoc]
        exact cutLast_append space.toList hname
      rw [identityOf_def, ScannedFile.identityOf, hcut]
      dsimp only
      rw [String.ofList_toList, String.ofList_toList, himported]

theorem decoratorName_of_binds (h : p.Binds file localName home name) :
    p.decoratorName file none localName = name := by
  unfold decoratorName
  dsimp only
  rw [h.imported]

/-- A name from a scanned file is looked up there, under the name that the file exports. -/
theorem resolveClass_of_binds_file {path : Path}
    (h : p.Binds file localName (.file path) name) :
    p.resolveClass file localName =
      .ofMatches (p.classesWhere fun c => c.name = name && p.isModule c.file path) := by
  rw [resolveClass_def, identityOf_of_binds h]

/-- A name from a package is searched for as it is written. -/
theorem resolveClass_of_binds_package {specifier : String}
    (h : p.Binds file localName (.package specifier) name) :
    p.resolveClass file localName = p.search localName := by
  have hlast : afterLast '.' localName.toList = localName.toList := by
    rw [afterLast, cutLast_eq_none_iff.2 h.plain]
  rw [resolveClass_def, identityOf_of_binds h]
  dsimp only
  rw [hlast, String.ofList_toList]
  rfl

end

variable (p : Program) {home : ModuleName} {name : String} {file₁ file₂ : FileId}
  {local₁ local₂ : String}

/-- Local names of one exported name stand for the same thing, as types and as decorators.  As
classes they do when the module is a scanned file; when it is a package, they do exactly when a
search for the one local name among all classes ends like a search for the other. -/
theorem aliases_resolve_alike_iff (h₁ : p.Binds file₁ local₁ home name)
    (h₂ : p.Binds file₂ local₂ home name) :
    p.identityOf file₁ local₁ = p.identityOf file₂ local₂ ∧
      p.decoratorName file₁ none local₁ = p.decoratorName file₂ none local₂ ∧
      (p.resolveClass file₁ local₁ = p.resolveClass file₂ local₂ ↔
        (∃ path, home = .file path) ∨ p.search local₁ = p.search local₂) := by
  refine ⟨?_, ?_, ?_⟩
  · rw [identityOf_of_binds h₁, identityOf_of_binds h₂]
  · rw [decoratorName_of_binds h₁, decoratorName_of_binds h₂]
  · cases home with
    | file path =>
      rw [resolveClass_of_binds_file h₁, resolveClass_of_binds_file h₂]
      exact iff_of_true rfl (.inl ⟨path, rfl⟩)
    | package specifier =>
      rw [resolveClass_of_binds_package h₁, resolveClass_of_binds_package h₂]
      exact ⟨.inr, fun h => h.resolve_left fun ⟨_, hfile⟩ => ModuleName.noConfusion hfile⟩

/-- Two files that import a class `Row` and a third that is called like its alias. -/
def aliasProgram (specifier : String) : Program :=
  let empty (name : String) (parent : Option String) : Source.SourceClass :=
    ⟨name, parent, [], [], [], false, true, default⟩
  ofSources ⟨"/src"⟩
    [⟨⟨"/src/row.ts"⟩, "", [], [empty "Row" none], []⟩,
      ⟨⟨"/src/line.ts"⟩, "", [], [empty "Line" none], []⟩,
      ⟨⟨"/src/a.ts"⟩, "", [⟨[⟨"Row", none⟩], specifier, default⟩], [empty "A" (some "Row")], []⟩,
      ⟨⟨"/src/b.ts"⟩, "", [⟨[⟨"Row", some "Line"⟩], specifier, default⟩],
        [empty "B" (some "Line")], []⟩]

/-- An alias of a class of a scanned file. -/
theorem aliases_resolve_alike_iff_file :
    let p := aliasProgram "./row"
    p.Binds 2 "Row" (.file ⟨"/src/row"⟩) "Row" ∧ p.Binds 3 "Line" (.file ⟨"/src/row"⟩) "Row" ∧
      p.resolveClass 2 "Row" = p.resolveClass 3 "Line" ∧ p.resolveClass 3 "Line" = .found 0 := by
  intro p
  have h₁ : p.Binds 2 "Row" (.file ⟨"/src/row"⟩) "Row" := ⟨by decide, rfl⟩
  have h₂ : p.Binds 3 "Line" (.file ⟨"/src/row"⟩) "Row" := ⟨by decide, rfl⟩
  exact ⟨h₁, h₂, (aliases_resolve_alike_iff p h₁ h₂).2.2.2 (.inl ⟨_, rfl⟩), by decide +kernel⟩

/-- An alias of a class behind a path alias, taken for a class that is called like the alias. -/
theorem alias_resolves_to_namesake :
    let p := aliasProgram "@app/row"
    p.Binds 2 "Row" (.package "@app/row") "Row" ∧ p.Binds 3 "Line" (.package "@app/row") "Row" ∧
      p.identityOf 2 "Row" = p.identityOf 3 "Line" ∧ p.resolveClass 2 "Row" = .found 0 ∧
      p.resolveClass 3 "Line" = .found 1 := by
  intro p
  have h₁ : p.Binds 2 "Row" (.package "@app/row") "Row" := ⟨by decide, rfl⟩
  have h₂ : p.Binds 3 "Line" (.package "@app/row") "Row" := ⟨by decide, rfl⟩
  have hidentity : p.identityOf 2 "Row" = p.identityOf 3 "Line" := by
    rw [identityOf_of_binds h₁, identityOf_of_binds h₂]
  exact ⟨h₁, h₂, hidentity, by decide +kernel, by decide +kernel⟩

end DaoGen.Program
