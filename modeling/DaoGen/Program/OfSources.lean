import DaoGen.Program.Arguments
set_option autoImplicit false

/-!
# The program of some source files

Classes are numbered in the order of the files and, within a file, in the order they
are declared in.  Declarations follow the same order; for each class its table comes
first, then its helper, then its upgrade routines.
-/

namespace DaoGen.Program

open DaoGen.Source (SourceFile SourceClass)

/-- Every class with the index of its file and the file. -/
def sourceClasses (files : List SourceFile) : List (FileId × SourceFile × SourceClass) :=
  files.zipIdx.flatMap fun (f, file) => f.classes.map fun c => (file, f, c)

/-- The declarations on a class and its methods. -/
def declarationsOf (p : Program) (owner : ClassId) (file : FileId) (f : SourceFile)
    (c : SourceClass) : List Declaration :=
  (if c.decorators.any (p.isMarked file .table) then [.table owner] else []) ++
    ((c.decorators.find? (p.isMarked file .helper)).map fun d =>
      Declaration.helper (.ofDecorator p file f owner d)).toList ++
    c.methods.flatMap fun m =>
      (m.decorators.filter (p.isMarked file .upgrade)).map fun d =>
        .routine (.ofDecorator p file f owner m d)

/-- The scanned files of some source files. -/
def ofFiles (sourceDir : Path) (files : List SourceFile) : Program :=
  ⟨sourceDir, files.map .ofSource, [], []⟩

/-- The scanned files and classes of some source files. -/
def ofClasses (sourceDir : Path) (files : List SourceFile) : Program :=
  let scanned := ofFiles sourceDir files
  { scanned with
    classes := (sourceClasses files).map fun (file, f, c) =>
      ScannedClass.ofSource scanned file f c }

/-- The program of some source files. -/
def ofSources (sourceDir : Path) (files : List SourceFile) : Program :=
  let known := ofClasses sourceDir files
  { known with
    declarations := (sourceClasses files).zipIdx.flatMap fun ((file, f, c), owner) =>
      declarationsOf known owner file f c }

/-! ## Where classes and declarations come from -/

theorem mem_sourceClasses {files : List SourceFile} {file : FileId} {f : SourceFile}
    {c : SourceClass} (h : (file, f, c) ∈ sourceClasses files) :
    files[file]? = some f ∧ c ∈ f.classes := by
  obtain ⟨⟨f', file'⟩, hfile, hc⟩ := List.mem_flatMap.1 h
  obtain ⟨c', hc', heq⟩ := List.mem_map.1 hc
  obtain ⟨rfl, rfl, rfl⟩ := heq
  exact ⟨List.mem_zipIdx_iff_getElem?.1 hfile, hc'⟩

theorem classes_ofClasses (sourceDir : Path) (files : List SourceFile) :
    (ofClasses sourceDir files).classes = (sourceClasses files).map fun x =>
      ScannedClass.ofSource (ofFiles sourceDir files) x.1 x.2.1 x.2.2 := rfl

theorem length_ofClasses (sourceDir : Path) (files : List SourceFile) :
    (ofClasses sourceDir files).classes.length = (sourceClasses files).length := by
  rw [classes_ofClasses, List.length_map]

theorem fileAt_ofClasses (sourceDir : Path) {files : List SourceFile} {file : FileId}
    {f : SourceFile} (h : files[file]? = some f) :
    (ofClasses sourceDir files).fileAt file = .ofSource f := by
  show (files.map ScannedFile.ofSource)[file]?.getD default = _
  rw [List.getElem?_map, h]
  rfl

theorem classAt_ofClasses (sourceDir : Path) {files : List SourceFile} {id : ClassId}
    {file : FileId} {f : SourceFile} {c : SourceClass}
    (h : (sourceClasses files)[id]? = some (file, f, c)) :
    (ofClasses sourceDir files).classAt id = .ofSource (ofFiles sourceDir files) file f c := by
  unfold classAt
  rw [classes_ofClasses, List.getElem?_map, h]
  rfl

theorem length_ofSources (sourceDir : Path) (files : List SourceFile) :
    (ofSources sourceDir files).classes.length = (sourceClasses files).length :=
  length_ofClasses sourceDir files

theorem fileAt_ofSources (sourceDir : Path) {files : List SourceFile} {file : FileId}
    {f : SourceFile} (h : files[file]? = some f) :
    (ofSources sourceDir files).fileAt file = .ofSource f :=
  fileAt_ofClasses sourceDir h

theorem classAt_ofSources (sourceDir : Path) {files : List SourceFile} {id : ClassId}
    {file : FileId} {f : SourceFile} {c : SourceClass}
    (h : (sourceClasses files)[id]? = some (file, f, c)) :
    (ofSources sourceDir files).classAt id = .ofSource (ofFiles sourceDir files) file f c :=
  classAt_ofClasses sourceDir h

/-- An index stands for a class of one of the source files, or for no class. -/
theorem classAt_ofSources_cases (sourceDir : Path) (files : List SourceFile) (id : ClassId) :
    (∃ f ∈ files, ∃ file, ∃ c ∈ f.classes, (ofSources sourceDir files).fileAt file = .ofSource f ∧
      (ofSources sourceDir files).classAt id = .ofSource (ofFiles sourceDir files) file f c) ∨
      (ofSources sourceDir files).classAt id = default := by
  cases hclass : (sourceClasses files)[id]? with
  | none =>
    have hlength : (ofSources sourceDir files).classes.length ≤ id := by
      rw [length_ofSources]
      exact List.getElem?_eq_none_iff.1 hclass
    refine .inr ?_
    rw [classAt, List.getElem?_eq_none hlength]
    rfl
  | some x =>
    obtain ⟨file, f, c⟩ := x
    obtain ⟨hfile, hc⟩ := mem_sourceClasses (List.mem_of_getElem? hclass)
    exact .inl ⟨f, List.mem_of_getElem? hfile, file, c, hc, fileAt_ofSources sourceDir hfile,
      classAt_ofSources sourceDir hclass⟩

/-- A declaration is the table, the helper or a routine of the class that it is made on. -/
theorem mem_declarationsOf {p : Program} {owner : ClassId} {file : FileId} {f : SourceFile}
    {c : SourceClass} {declaration : Declaration}
    (h : declaration ∈ p.declarationsOf owner file f c) :
    declaration = .table owner ∨
      (∃ d ∈ c.decorators, declaration = .helper (.ofDecorator p file f owner d)) ∨
      ∃ m ∈ c.methods, ∃ d ∈ m.decorators,
        declaration = .routine (.ofDecorator p file f owner m d) := by
  simp only [declarationsOf, List.mem_append] at h
  rcases h with (htable | hhelper) | hroutine
  · split at htable
    · exact .inl (List.mem_singleton.1 htable)
    · cases htable
  · obtain ⟨d, hd, rfl⟩ := Option.map_eq_some_iff.1 (Option.mem_toList.1 hhelper)
    exact .inr (.inl ⟨d, List.mem_of_find?_eq_some hd, rfl⟩)
  · obtain ⟨m, hm, hroutine⟩ := List.mem_flatMap.1 hroutine
    obtain ⟨d, hd, rfl⟩ := List.mem_map.1 hroutine
    exact .inr (.inr ⟨m, hm, d, (List.mem_filter.1 hd).1, rfl⟩)

/-- A declaration is made on a class of a source file. -/
theorem exists_of_mem_declarations {sourceDir : Path} {files : List SourceFile}
    {declaration : Declaration} (h : declaration ∈ (ofSources sourceDir files).declarations) :
    ∃ owner < (ofSources sourceDir files).classes.length, ∃ file f c,
      (file, f, c) ∈ sourceClasses files ∧
        declaration ∈ (ofClasses sourceDir files).declarationsOf owner file f c := by
  obtain ⟨⟨⟨file, f, c⟩, owner⟩, hx, hdeclared⟩ := List.mem_flatMap.1 h
  have hget := List.mem_zipIdx_iff_getElem?.1 hx
  have hlt := (List.getElem?_eq_some_iff.1 hget).1
  exact ⟨owner, by simpa [ofSources, ofClasses] using hlt, file, f, c,
    List.mem_of_getElem? hget, hdeclared⟩

end DaoGen.Program
