import DaoGen.Program.OfSources
import DaoGen.Source.Reading
set_option autoImplicit false

/-!
# What a file exports

The names that a module exports follow from its export statements.  A declaration is exported
under its own name, unless the statement says `default`: then the module exports what is declared
as `default` and nothing else.  A list exports what it names, each under its new name if it has
one.

Reading a class notes that it stands in an export statement and not under which name it is
exported (`Program.exists_exporting_of_exported`).
-/

namespace DaoGen

open DaoGen.Syntax (Node Kind Role)

namespace Source

/-! ## Exported names -/

/-- The name of a class. -/
def className? (n : Node) : Option String :=
  (n.children.filter (·.kind = .typeName)).getLast?.map (·.string)

/-- The name that a part of an export list exports something under. -/
def specifierName? (n : Node) : Option String :=
  ((n.child? .renamed) <|> (n.child? .name)).map fun name => String.ofList (unquoted name.text)

/-- The name that `* as` exports a module under. -/
def wholeName? (n : Node) : Option String :=
  if n.children.head?.any (·.isMark "*") then
    n.children.getLast?.map fun name => String.ofList (unquoted name.text)
  else none

/-- The names that a part of an export statement exports, when the statement says nothing else.
Functions and variables are left out: none of them has the name of a class of the file. -/
def namesExportedIn (n : Node) : List String :=
  if isClass n then (className? n).toList
  else if isTypeDeclaration n then ((n.child? .name).map (·.string)).toList
  else (wholeName? n).toList ++ n.children.filterMap specifierName?

/-- Whether an export statement exports what it holds as `default`. -/
def isDefault (statement : Node) : Bool := hasWord "default" statement.children

/-- The names that a statement exports. -/
def namesExportedBy (statement : Node) : List String :=
  if statement.kind = .exportStatement then
    if isDefault statement then ["default"] else statement.children.flatMap namesExportedIn
  else []

/-- The names that a module exports, but for those that it passes on with `export *`. -/
def exportedNames (tree : Node) : List String := tree.children.flatMap namesExportedBy

/-- A statement is an export statement with a class of a name. -/
structure IsExporting (statement : Node) (name : String) : Prop where
  kind : statement.kind = .exportStatement
  declares : ∃ n ∈ statement.children, isClass n = true ∧ className? n = some name

variable {statement tree : Node} {name : String}

/-- A class that stands in an export statement is exported under its name when the statement does
not say `default`. -/
theorem IsExporting.mem_exportedNames (h : IsExporting statement name)
    (hmem : statement ∈ tree.children) (hdefault : isDefault statement = false) :
    name ∈ exportedNames tree := by
  obtain ⟨n, hn, hclass, hname⟩ := h.declares
  have hby : name ∈ namesExportedBy statement := by
    rw [namesExportedBy, if_pos h.kind, if_neg (ne_true_of_eq_false hdefault)]
    refine List.mem_flatMap.2 ⟨n, hn, ?_⟩
    rw [namesExportedIn, if_pos hclass, hname]
    exact List.mem_singleton.2 rfl
  exact List.mem_flatMap.2 ⟨statement, hmem, hby⟩

/-- Otherwise the statement exports no name but `default`. -/
theorem IsExporting.namesExportedBy_eq (h : IsExporting statement name)
    (hdefault : isDefault statement = true) : namesExportedBy statement = ["default"] := by
  rw [namesExportedBy, if_pos h.kind, if_pos hdefault]

/-! ## Classes that are read as exported -/

theorem name_of_readClass {exported : Bool} {pending : List Decorator} {n : Node}
    {c : SourceClass} (h : readClass exported pending n = some c) :
    className? n = some c.name ∧ c.exported = exported := by
  obtain ⟨name, hname, rfl⟩ := Option.map_eq_some_iff.1 h
  exact ⟨Option.map_eq_some_iff.2 ⟨name, hname, rfl⟩, rfl⟩

theorem isExporting_of_mem_classesOf {c : SourceClass} (h : c ∈ classesOf statement)
    (hexported : c.exported = true) : IsExporting statement c.name := by
  unfold classesOf at h
  split at h
  · rw [(name_of_readClass (Option.mem_toList.1 h)).2] at hexported
    cases hexported
  · split at h
    · rename_i hkind
      obtain ⟨n, hn, hread⟩ := List.mem_filterMap.1 h
      obtain ⟨hn, hclass⟩ := List.mem_filter.1 hn
      exact ⟨hkind, n, hn, hclass, (name_of_readClass hread).1⟩
    · cases h

end Source

/-- A class that a program holds as exported stands in an export statement of its file. -/
theorem Program.exists_exporting_of_exported {dir : Path}
    {sources : List (Path × String × Node)} {id : ClassId} :
    let p := ofSources dir (sources.map fun s => Source.ofTree s.1 s.2.1 s.2.2)
    (p.classAt id).exported = true →
      ∃ s ∈ sources, p.fileOf id = .ofSource (Source.ofTree s.1 s.2.1 s.2.2) ∧
        ∃ statement ∈ s.2.2.children, Source.IsExporting statement (p.classAt id).name := by
  intro p hexported
  rcases classAt_ofSources_cases dir (sources.map fun s => Source.ofTree s.1 s.2.1 s.2.2) id with
    ⟨f, hf, file, c, hc, hfile, hclass⟩ | hnone
  · obtain ⟨s, hs, rfl⟩ := List.mem_map.1 hf
    have hfileOf : p.fileOf id = .ofSource (Source.ofTree s.1 s.2.1 s.2.2) := by
      rw [fileOf, hclass]
      exact hfile
    rw [hclass] at hexported ⊢
    obtain ⟨statement, hstatement, hc⟩ := List.mem_flatMap.1 hc
    exact ⟨s, hs, hfileOf, statement, hstatement, Source.isExporting_of_mem_classesOf hc hexported⟩
  · rw [hnone] at hexported
    cases hexported

end DaoGen
