import DaoGen.Proofs.Program.Extension
import DaoGen.Proofs.Program.Places
set_option autoImplicit false

/-!
# Indices of files and classes

Classes are numbered in a walk over the classes of all files, and counted again in the walk that
collects their declarations.  Both counts come to the number of classes in the files before and of
those before in the same file (`Program.getElem?_sourceClasses_iff`).  So the declarations that
carry the index of a class are those made on that very class (`Program.filter_owner_declarations`),
and no index in a program is out of range (`Program.wellIndexed_ofSources`).

Where an index is out of range a program's own look-ups make up a class or a file, and those of
`Program.lookup?` fail.  In a program without stray indices it makes no difference: over all
look-ups that find what there is (`Lookup.Finds`), in whatever monad, each function comes to what it
comes to in the program.
-/

namespace DaoGen

open DaoGen.Source (SourceFile SourceClass Decorator Expr)

/-! ## Lists with positions -/

section

variable {α β : Type}

/-- Of the parts made of numbered elements those for one number are left. -/
theorem flatMap_zipIdx_eq_of_getElem? {make : α × Nat → List β} {l : List α} {x : α} {n id : Nat}
    (hx : l[id]? = some x) :
    ((l.zipIdx n).flatMap fun y => if y.2 = n + id then make y else []) = make (x, n + id) := by
  induction l generalizing n id with
  | nil => cases hx
  | cons first rest ih =>
    rw [List.zipIdx_cons, List.flatMap_cons]
    cases id with
    | zero =>
      obtain rfl := Option.some.inj hx
      have hrest : ((rest.zipIdx (n + 1)).flatMap fun y =>
          if y.2 = n + 0 then make y else []) = [] := by
        refine List.flatMap_eq_nil_iff.2 fun y hy => if_neg ?_
        have := (List.mem_zipIdx hy).1
        omega
      rw [hrest, List.append_nil]
      exact if_pos rfl
    | succ id =>
      have hfirst : ¬ n = n + (id + 1) := by omega
      have hnext : n + (id + 1) = n + 1 + id := by omega
      rw [if_neg hfirst, List.nil_append, hnext]
      exact ih hx

end

/-- A scanned class has the file, the name and the place of a class of a source file. -/
structure ScannedClass.IsOf (s : ScannedClass) (file : FileId) (f : SourceFile)
    (c : SourceClass) : Prop where
  file : s.file = file
  name : s.name = c.name
  place : s.place = placeIn f c.span

namespace Program

/-! ## Positions of classes -/

/-- The index of the first class of a file: the classes of the files before it come first. -/
def firstClass (files : List SourceFile) (file : Nat) : Nat :=
  ((files.take file).flatMap (·.classes)).length

theorem firstClass_succ (f : SourceFile) (rest : List SourceFile) (file : Nat) :
    firstClass (f :: rest) (file + 1) = f.classes.length + firstClass rest file := by
  rw [firstClass, List.take_succ_cons, List.flatMap_cons, List.length_append, firstClass]

/-- A class comes behind the classes of the files before and the ones before it in its file. -/
theorem getElem?_sourceClasses_iff {files : List SourceFile} {id file : Nat} {f : SourceFile}
    {c : SourceClass} :
    (sourceClasses files)[id]? = some (file, f, c) ↔
      files[file]? = some f ∧ ∃ k, f.classes[k]? = some c ∧ id = firstClass files file + k := by
  suffices h : ∀ n, ((files.zipIdx n).flatMap fun x =>
      x.1.classes.map fun c => (x.2, x.1, c))[id]? = some (file, f, c) ↔
        ∃ i, file = n + i ∧ files[i]? = some f ∧
          ∃ k, f.classes[k]? = some c ∧ id = firstClass files i + k by
    simpa [sourceClasses] using h 0
  induction files generalizing id with
  | nil => simp
  | cons g rest ih =>
    intro n
    rw [List.zipIdx_cons, List.flatMap_cons]
    dsimp only
    by_cases hid : id < g.classes.length
    · rw [List.getElem?_append_left (by rwa [List.length_map]), List.getElem?_map]
      constructor
      · intro h
        obtain ⟨c', hc', heq⟩ := Option.map_eq_some_iff.1 h
        obtain ⟨rfl, rfl, rfl⟩ := heq
        exact ⟨0, rfl, rfl, id, hc', (Nat.zero_add id).symm⟩
      · rintro ⟨i, rfl, hi, k, hk, rfl⟩
        cases i with
        | zero =>
          obtain rfl := Option.some.inj hi
          rw [show firstClass (g :: rest) 0 = 0 from rfl, Nat.zero_add, hk]
          rfl
        | succ i =>
          rw [firstClass_succ] at hid
          omega
    · rw [List.getElem?_append_right (by rw [List.length_map]; omega), List.length_map, ih (n + 1)]
      constructor
      · rintro ⟨i, rfl, hi, k, hk, hposition⟩
        refine ⟨i + 1, by omega, hi, k, hk, ?_⟩
        rw [firstClass_succ]
        omega
      · rintro ⟨i, rfl, hi, k, hk, rfl⟩
        cases i with
        | zero =>
          obtain rfl := Option.some.inj hi
          have hlt := (List.getElem?_eq_some_iff.1 hk).1
          rw [show firstClass (g :: rest) 0 = 0 from rfl] at hid
          omega
        | succ i =>
          refine ⟨i, by omega, hi, k, hk, ?_⟩
          rw [firstClass_succ]
          omega

/-! ## Declarations and their classes -/

section

variable (dir : Path) {files : List SourceFile} {file : FileId} {f : SourceFile} {c : SourceClass}

/-- The declarations that carry the index of a class are those made on that class. -/
theorem filter_owner_declarations {id : ClassId}
    (h : (sourceClasses files)[id]? = some (file, f, c)) :
    (ofSources dir files).declarations.filter (·.owner = id) =
      (ofClasses dir files).declarationsOf id file f c := by
  let make : (FileId × SourceFile × SourceClass) × Nat → List Declaration :=
    fun y => (ofClasses dir files).declarationsOf y.2 y.1.1 y.1.2.1 y.1.2.2
  have hparts : ∀ y : (FileId × SourceFile × SourceClass) × Nat,
      (make y).filter (·.owner = id) = if y.2 = 0 + id then make y else [] := by
    rintro ⟨⟨file, f, c⟩, owner⟩
    rw [Nat.zero_add]
    split
    · rename_i heq
      refine List.filter_eq_self.2 fun d hd => decide_eq_true ?_
      exact (owner_of_mem_declarationsOf hd).trans heq
    · rename_i hne
      refine List.filter_eq_nil_iff.2 fun d hd heq => hne ?_
      exact (owner_of_mem_declarationsOf hd).symm.trans (of_decide_eq_true heq)
  have hmake := @flatMap_zipIdx_eq_of_getElem? _ _ make _ _ 0 id h
  have hfilter : (ofSources dir files).declarations.filter (·.owner = id) =
      (sourceClasses files).zipIdx.flatMap fun y => if y.2 = 0 + id then make y else [] := by
    show ((sourceClasses files).zipIdx.flatMap make).filter _ = _
    rw [List.filter_flatMap]
    exact congrArg (List.flatMap · _) (funext hparts)
  rw [hfilter, hmake, Nat.zero_add]

/-- Files with classes of one name, and one without classes between them. -/
example :
    let marked (name : String) : SourceClass :=
      ⟨"Row", none, [⟨name, none, [], default⟩], [], [], false, true, default⟩
    let file (path : String) (classes : List SourceClass) : SourceFile :=
      ⟨⟨path⟩, "", [], classes, []⟩
    (ofSources ⟨"/src"⟩ [file "/src/a.ts" [marked "DatabaseTable"], file "/src/b.ts" [],
      file "/src/c.ts" [marked "Other", marked "Helper"]]).declarations.map (·.owner) = [0, 2] := by
  decide +kernel

/-- The class of an index has the file, the name and the place of the class at its position. -/
theorem isOf_ofSources {id : ClassId} (h : (sourceClasses files)[id]? = some (file, f, c)) :
    ∃ s, (ofSources dir files).classes[id]? = some s ∧ s.IsOf file f c := by
  refine ⟨.ofSource (ofFiles dir files) file f c, ?_, rfl, rfl, rfl⟩
  show (ofClasses dir files).classes[id]? = _
  rw [classes_ofClasses, List.getElem?_map, h]
  rfl

end

end Program

/-! ## Entries of tables -/

namespace HelperDeclaration

variable {p : Program} {file : FileId} {f : SourceFile}

/-- The entries of a declaration's tables stand for what their names stand for in a file. -/
def ResolvedIn (p : Program) (file : FileId) (d : HelperDeclaration) : Prop :=
  ∀ e ∈ d.tables, e.resolution = p.resolveClass file e.written

theorem ResolvedIn.addTable {d : HelperDeclaration} (h : d.ResolvedIn p file) (e : Expr) :
    (d.addTable p file f e).ResolvedIn p file := by
  unfold HelperDeclaration.addTable
  split
  · intro entry hentry
    rcases List.mem_append.1 hentry with hentry | hentry
    · exact h entry hentry
    · rw [List.mem_singleton.1 hentry]
  · exact h

theorem ResolvedIn.addOption {d : HelperDeclaration} (h : d.ResolvedIn p file)
    (member : String × Expr) : (d.addOption p file f member).ResolvedIn p file := by
  unfold HelperDeclaration.addOption
  dsimp only
  split
  · split <;> exact h
  · split <;> exact h
  · split
    · exact List.foldlRecOn _ _ h fun d hd e _ => hd.addTable e
    · exact h
  · split <;> exact h
  · split <;> exact h
  · exact h

theorem resolvedIn_ofDecorator (p : Program) (file : FileId) (f : SourceFile) (owner : ClassId)
    (d : Decorator) : (ofDecorator p file f owner d).ResolvedIn p file := by
  have hbare : (⟨owner, none, none, [], false, false, [], placeIn f d.span⟩ :
      HelperDeclaration).ResolvedIn p file := fun _ h => (nomatch h)
  unfold ofDecorator
  split
  · exact List.foldlRecOn _ _ hbare fun d hd member _ => hd.addOption member
  · exact hbare

end HelperDeclaration

namespace Program

/-! ## Programs without stray indices -/

/-- All indices in a program are those of its files and classes. -/
structure WellIndexed (p : Program) : Prop where
  files : ∀ c ∈ p.classes, c.file < p.files.length
  owners : ∀ d ∈ p.declarations, d.owner < p.classes.length
  entries : ∀ h ∈ p.helpers, ∀ e ∈ h.tables, ∀ id, e.resolution = .found id →
    id < p.classes.length
  parents : ∀ id parent, p.parentOf id = some parent → parent < p.classes.length

theorem length_files_ofSources (dir : Path) (files : List SourceFile) :
    (ofSources dir files).files.length = files.length :=
  List.length_map _

/-- No index in the program of some source files is out of range. -/
theorem wellIndexed_ofSources (dir : Path) (files : List SourceFile) :
    (ofSources dir files).WellIndexed where
  files := by
    intro s hs
    obtain ⟨⟨file, f, c⟩, hx, rfl⟩ := List.mem_map.1 hs
    rw [length_files_ofSources]
    exact (List.getElem?_eq_some_iff.1 (mem_sourceClasses hx).1).1
  owners := by
    intro d hd
    obtain ⟨owner, hlt, file, f, c, -, hdeclared⟩ := exists_of_mem_declarations hd
    rwa [owner_of_mem_declarationsOf hdeclared]
  entries := by
    intro h hh e he id hfound
    obtain ⟨d, hd, hhelper⟩ := List.mem_filterMap.1 hh
    obtain ⟨owner, -, file, f, c, -, hdeclared⟩ := exists_of_mem_declarations hd
    rcases mem_declarationsOf hdeclared with rfl | ⟨decorator, -, rfl⟩ | ⟨m, -, decorator, -, rfl⟩
    · cases hhelper
    · obtain rfl := Option.some.inj hhelper
      rw [HelperDeclaration.resolvedIn_ofDecorator _ _ _ _ _ e he] at hfound
      exact lt_of_resolveClass_eq_found hfound
    · cases hhelper
  parents := fun _ _ => lt_of_parentOf_found

theorem WellIndexed.file_lt {p : Program} (hp : p.WellIndexed) {id : ClassId}
    (hid : id < p.classes.length) : (p.classAt id).file < p.files.length :=
  hp.files _ (classAt_mem hid)

theorem WellIndexed.lt_of_mem_tables {p : Program} (hp : p.WellIndexed) {id : ClassId}
    (h : id ∈ p.tables) : id < p.classes.length := by
  obtain ⟨d, hd, htable⟩ := List.mem_filterMap.1 h
  cases d with
  | table owner =>
    obtain rfl := Option.some.inj htable
    exact hp.owners _ hd
  | helper d => cases htable
  | routine r => cases htable

theorem WellIndexed.owner_lt {p : Program} (hp : p.WellIndexed) {h : HelperDeclaration}
    (hh : h ∈ p.helpers) : h.owner < p.classes.length := by
  obtain ⟨d, hd, hhelper⟩ := List.mem_filterMap.1 hh
  cases d with
  | table owner => cases hhelper
  | helper d =>
    obtain rfl := Option.some.inj hhelper
    exact hp.owners _ hd
  | routine r => cases hhelper

/-! ## Look-ups that may fail -/

/-- The look-ups in a program that fail for an index of nothing. -/
def lookup? (p : Program) : Lookup Option :=
  ⟨p.classes.length, (p.classes[·]?), (p.files[·]?)⟩

end Program

/-- Look-ups find a program when they give the class or the file of each index that the program
has one for.  What they do with any other index is left open. -/
structure Lookup.Finds {m : Type → Type} [Monad m] (look : Lookup m) (p : Program) : Prop where
  count : look.count = p.classes.length
  classAt : ∀ id < p.classes.length, look.classAt id = pure (p.classAt id)
  fileAt : ∀ file < p.files.length, look.fileAt file = pure (p.fileAt file)

/-- Look-ups that fail for an index of nothing find all that there is. -/
theorem Program.finds_lookup? (p : Program) : p.lookup?.Finds p where
  count := rfl
  classAt := by
    intro id hid
    rw [Program.classAt, List.getElem?_eq_getElem hid]
    exact List.getElem?_eq_getElem hid
  fileAt := by
    intro file hfile
    rw [Program.fileAt, List.getElem?_eq_getElem hfile]
    exact List.getElem?_eq_getElem hfile

namespace Lookup.Finds

variable {m : Type → Type} [Monad m] [LawfulMonad m] {look : Lookup m} {p : Program}
  {file : FileId} {id : ClassId}

theorem identityOf (h : look.Finds p) (hfile : file < p.files.length) (written : String) :
    look.identityOf file written = pure (p.identityOf file written) := by
  rw [Lookup.identityOf, h.fileAt file hfile, pure_bind, Program.identityOf_def]

theorem classesWhere (h : look.Finds p) {test : ScannedClass → m Bool}
    {test' : ScannedClass → Bool} (htest : ∀ c ∈ p.classes, test c = pure (test' c)) :
    look.classesWhere test = pure (p.classesWhere test') := by
  rw [Lookup.classesWhere, Program.classesWhere_def, h.count]
  refine filterM_eq_pure fun id hid => ?_
  have hid := List.mem_range.1 hid
  rw [h.classAt id hid, pure_bind, htest _ (Program.classAt_mem hid)]

variable (h : look.Finds p) (hp : p.WellIndexed)

include h hp

theorem homeOf (hid : id < p.classes.length) : look.homeOf id = pure (p.homeOf id) := by
  rw [Lookup.homeOf, h.classAt id hid, pure_bind, h.fileAt _ (hp.file_lt hid), pure_bind,
    Program.homeOf_def]
  rfl

/-- A written class name stands for what it stands for in the program. -/
theorem resolveClass (hfile : file < p.files.length) (written : String) :
    look.resolveClass file written = pure (p.resolveClass file written) := by
  have hdeclared (path : Path) (name : String) :
      look.classesWhere (fun c => do
        let f ← look.fileAt c.file
        return c.name = name && f.isModule path) =
        pure (p.classesWhere fun c => c.name = name && p.isModule c.file path) :=
    h.classesWhere fun c hc => by rw [h.fileAt _ (hp.files c hc), pure_bind, Program.isModule]
  have hsearch (name : String) :
      look.classesWhere (fun c => return c.name = name) =
        pure (p.classesWhere fun c => c.name = name) :=
    h.classesWhere fun _ _ => rfl
  rw [Lookup.resolveClass, h.identityOf hfile, pure_bind, Program.resolveClass_def]
  split
  · rw [hdeclared, pure_bind]
  · dsimp only
    rw [hsearch, pure_bind]

theorem parentOf (hid : id < p.classes.length) : look.parentOf id = pure (p.parentOf id) := by
  rw [Lookup.parentOf, h.classAt id hid, pure_bind, Program.parentOf_def]
  cases (p.classAt id).parent with
  | none => rfl
  | some written =>
    dsimp only
    rw [h.resolveClass hp (hp.file_lt hid), pure_bind]
    cases p.resolveClass (p.classAt id).file written <;> rfl

theorem canMakeWithin (bound : Nat) (hid : id < p.classes.length) :
    look.canMakeWithin bound id = pure (p.canMakeWithin bound id) := by
  induction bound generalizing id with
  | zero => rfl
  | succ bound ih =>
    rw [Lookup.canMakeWithin, h.classAt id hid, pure_bind, Program.canMakeWithin_succ]
    cases (p.classAt id).shape with
    | zeroArgs => rfl
    | requiresArgs => rfl
    | inherited =>
      dsimp only
      rw [h.parentOf hp hid, pure_bind]
      cases hparent : p.parentOf id with
      | none => rfl
      | some parent => exact ih (hp.parents id parent hparent)

theorem canMake (hid : id < p.classes.length) : look.canMake id = pure (p.canMake id) := by
  rw [Lookup.canMake, h.count, h.canMakeWithin hp _ hid, Program.canMake_def]

end Lookup.Finds

end DaoGen
