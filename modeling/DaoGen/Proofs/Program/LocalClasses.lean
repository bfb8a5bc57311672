import DaoGen.Program.OfSources
import DaoGen.Proofs.Source.Names
set_option autoImplicit false

/-!
# Classes named in their own file

A class is referred to in its own file by its name.  Such a name is resolved through the path of
the file as a module, and other files may go by that path too: files that differ from it in their
extension only, and the index file of the directory of that name.  So the name stands for the class
of its own file exactly when no such file has a class of the same name
(`local_class_resolves_iff`); otherwise it is ambiguous.
-/

namespace DaoGen

open DaoGen.Source (SourceFile SourceClass)
open DaoGen.Text (cutLast_eq_none_iff)

/-! ## Candidates -/

namespace Resolution

theorem ofMatches_eq_found_iff {ids : List ClassId} {id : ClassId} :
    ofMatches ids = .found id ↔ ids = [id] := by
  match ids with
  | [] => simp [ofMatches]
  | [other] => simp [ofMatches]
  | _ :: _ :: _ => simp [ofMatches]

/-- A candidate that is not the only one leaves a name ambiguous. -/
theorem exists_ambiguous_of_mem {ids : List ClassId} {id : ClassId} (hmem : id ∈ ids)
    (h : ids ≠ [id]) : ∃ count, 2 ≤ count ∧ ofMatches ids = .ambiguous count := by
  match ids with
  | [] => cases hmem
  | [other] => exact absurd (congrArg ([·]) (List.mem_singleton.1 hmem).symm) h
  | _ :: _ :: rest => exact ⟨rest.length + 2, Nat.le_add_left 2 _, rfl⟩

end Resolution

namespace Program

section

variable {p : Program} {test : ScannedClass → Bool}

theorem mem_classesWhere {id : ClassId} :
    id ∈ p.classesWhere test ↔ id < p.classes.length ∧ test (p.classAt id) = true := by
  rw [classesWhere_def, List.mem_filter, List.mem_range]

/-- As many classes are found by a test as pass it. -/
theorem length_classesWhere (p : Program) (test : ScannedClass → Bool) :
    (p.classesWhere test).length = p.classes.countP test := by
  have hall : (List.range p.classes.length).map p.classAt = p.classes := by
    refine List.ext_getElem (by rw [List.length_map, List.length_range]) fun id _ hid => ?_
    rw [List.getElem_map, List.getElem_range, classAt, List.getElem?_eq_getElem hid]
    rfl
  rw [classesWhere_def, ← List.countP_eq_length_filter]
  conv_rhs => rw [← hall, List.countP_map]
  rfl

/-- A class is the only one that passes a test when all that pass it are the same. -/
theorem classesWhere_eq_singleton_iff {id : ClassId} (h : id ∈ p.classesWhere test) :
    p.classesWhere test = [id] ↔ ∀ other ∈ p.classesWhere test, other = id := by
  constructor
  · intro heq other hother
    rw [heq] at hother
    exact List.mem_singleton.1 hother
  · intro hall
    have hreplicate := List.eq_replicate_of_mem hall
    have hnodup : (p.classesWhere test).Nodup := by
      rw [classesWhere_def]
      exact List.nodup_range.filter _
    rw [hreplicate, List.nodup_replicate] at hnodup
    have hpos := List.length_pos_of_mem h
    rw [hreplicate, Nat.le_antisymm hnodup hpos]
    rfl

end

/-! ## The classes of one file -/

/-- Of the classes of some files, those of one name that are in a given file are its own. -/
theorem countP_classes (file : FileId) (name : String) (files : List SourceFile) (first : Nat) :
    ((files.zipIdx first).flatMap fun (f, i) => f.classes.map fun c => (i, f, c)).countP
        (fun x => decide (x.1 = file ∧ x.2.2.name = name)) =
      if first ≤ file then
        (files[file - first]?.map fun f => (f.classes.map (·.name)).count name).getD 0
      else 0 := by
  induction files generalizing first with
  | nil => simp
  | cons f rest ih =>
    have hown : (f.classes.map fun c => (first, f, c)).countP
        (fun x => decide (x.1 = file ∧ x.2.2.name = name)) =
          if first = file then (f.classes.map (·.name)).count name else 0 := by
      rw [List.countP_map]
      split
      · rename_i heq
        rw [List.count, List.countP_map]
        refine List.countP_congr fun c _ => ?_
        simp [heq]
      · rename_i hne
        simp [Function.comp_def, hne]
    rw [List.zipIdx_cons, List.flatMap_cons, List.countP_append, hown, ih]
    rcases Nat.lt_trichotomy first file with hlt | rfl | hgt
    · obtain ⟨k, rfl⟩ := Nat.exists_eq_add_of_lt hlt
      have hindex : first + k + 1 - first = k + 1 := by omega
      have hnext : first + k + 1 - (first + 1) = k := by omega
      rw [if_neg (by omega), if_pos (by omega), if_pos (by omega), hindex, hnext,
        List.getElem?_cons_succ, Nat.zero_add]
    · rw [if_pos rfl, if_neg (Nat.not_succ_le_self _), if_pos (Nat.le_refl _), Nat.sub_self]
      rfl
    · rw [if_neg (by omega), if_neg (by omega), if_neg (by omega)]

variable {dir : Path} {files : List SourceFile} {file : FileId} {f : SourceFile} {name : String}

theorem mem_classesWhere_ofSources {test : ScannedClass → Bool} {id : ClassId} :
    id ∈ (ofSources dir files).classesWhere test ↔
      ∃ file f c, (sourceClasses files)[id]? = some (file, f, c) ∧
        test (.ofSource (ofFiles dir files) file f c) = true := by
  rw [mem_classesWhere, length_ofSources]
  constructor
  · rintro ⟨hlt, htest⟩
    have hget := List.getElem?_eq_getElem hlt
    rw [classAt_ofSources dir hget] at htest
    exact ⟨_, _, _, hget, htest⟩
  · rintro ⟨file, f, c, hget, htest⟩
    rw [classAt_ofSources dir hget]
    exact ⟨(List.getElem?_eq_some_iff.1 hget).1, htest⟩

theorem exists_index_of_mem_classes {c : SourceClass} (hfile : files[file]? = some f)
    (hc : c ∈ f.classes) : ∃ id : ClassId, (sourceClasses files)[id]? = some (file, f, c) := by
  refine List.getElem?_of_mem (List.mem_flatMap.2 ⟨(f, file), ?_, List.mem_map_of_mem hc⟩)
  exact List.mem_zipIdx_iff_getElem?.2 hfile

/-- A file with one class of a name has it under one index. -/
theorem exists_own_class (dir : Path) (hfile : files[file]? = some f)
    (hcount : (f.classes.map (·.name)).count name = 1) :
    ∃ (id : ClassId) (c : SourceClass), (sourceClasses files)[id]? = some (file, f, c) ∧
      c.name = name ∧ ∀ (other : ClassId) (c' : SourceClass),
        (sourceClasses files)[other]? = some (file, f, c') → c'.name = name →
        other = id := by
  have hclasses : (ofSources dir files).classes = (sourceClasses files).map fun x =>
      ScannedClass.ofSource (ofFiles dir files) x.1 x.2.1 x.2.2 := classes_ofClasses dir files
  have hone := countP_classes file name files 0
  rw [if_pos (Nat.zero_le _), Nat.sub_zero, hfile, Option.map_some, Option.getD_some,
    hcount] at hone
  have hlength : ((ofSources dir files).classesWhere
      fun c => decide (c.file = file ∧ c.name = name)).length = 1 := by
    rw [length_classesWhere, hclasses, List.countP_map]
    exact hone
  obtain ⟨id, hid⟩ := List.length_eq_one_iff.1 hlength
  obtain ⟨file', f', c, hget, htest⟩ :=
    mem_classesWhere_ofSources.1 (hid ▸ List.mem_singleton_self id)
  obtain ⟨rfl, rfl⟩ : file' = file ∧ c.name = name := of_decide_eq_true htest
  obtain rfl : f = f' :=
    Option.some.inj (hfile.symm.trans (mem_sourceClasses (List.mem_of_getElem? hget)).1)
  refine ⟨id, c, hget, rfl, fun other c' hother hname => ?_⟩
  have hmem : other ∈ (ofSources dir files).classesWhere
      fun c' => decide (c'.file = file' ∧ c'.name = c.name) :=
    mem_classesWhere_ofSources.2 ⟨file', f, c', hother, decide_eq_true ⟨rfl, hname⟩⟩
  rw [hid] at hmem
  exact List.mem_singleton.1 hmem

/-! ## Rivals -/

/-- A file goes by the module path of another one: it has the path without extension, or it is the
index file of the directory of that path. -/
def GoesBy (f g : SourceFile) : Prop :=
  let home := f.path.normalize.moduleStem
  (g.path.normalize.moduleStem == home || g.path.normalize.moduleStem == home.join ⟨"index"⟩) = true

instance (f g : SourceFile) : Decidable (GoesBy f g) := inferInstanceAs (Decidable (_ = true))

theorem goesBy_self (f : SourceFile) : GoesBy f f := by
  have hself : (f.path.normalize.moduleStem == f.path.normalize.moduleStem) = true :=
    beq_self_eq_true f.path.normalize.moduleStem.parts
  show (_ || _) = true
  rw [hself, Bool.true_or]

theorem stem_ofSource (f : SourceFile) :
    (ScannedFile.ofSource f).stem = f.path.normalize.moduleStem := by
  simp only [ScannedFile.ofSource]

/-- A file that goes by the module path of another one has a class of the name too. -/
structure IsRival (f g : SourceFile) (name : String) : Prop where
  goesBy : GoesBy f g
  declares : ∃ c ∈ g.classes, c.name = name

/-- A name that a file has a class for, and does not import, is looked up in that file. -/
theorem resolveClass_of_declared (hfile : files[file]? = some f) (hdot : '.' ∉ name.toList)
    (hdeclared : ∃ c ∈ f.classes, c.name = name)
    (himport : ((ofSources dir files).fileAt file).imports.get? name = none) :
    (ofSources dir files).resolveClass file name = .ofMatches
      ((ofSources dir files).classesWhere fun c =>
        c.name = name && (ofSources dir files).isModule c.file (ScannedFile.ofSource f).stem) := by
  have hcontains : (ScannedFile.ofSource f).declared.contains name = true := by
    obtain ⟨c, hc, rfl⟩ := hdeclared
    exact List.contains_iff_mem.2 (List.mem_append_left _ (List.mem_map_of_mem hc))
  have hidentity : (ofSources dir files).identityOf file name =
      some ⟨.file (ScannedFile.ofSource f).stem, name⟩ := by
    rw [identityOf_def, ScannedFile.identityOf, cutLast_eq_none_iff.2 hdot]
    dsimp only
    rw [himport]
    dsimp only
    rw [fileAt_ofSources dir hfile, if_pos hcontains]
  rw [resolveClass_def, hidentity]

variable (dir) in
/-- The candidates for a name that is looked up in a file are the classes of that name in the files
that go by its module path. -/
theorem mem_candidates_iff {id : ClassId} :
    id ∈ (ofSources dir files).classesWhere (fun c => c.name = name &&
        (ofSources dir files).isModule c.file (ScannedFile.ofSource f).stem) ↔
      ∃ (other : FileId) (g : SourceFile) (c : SourceClass),
        (sourceClasses files)[id]? = some (other, g, c) ∧ c.name = name ∧ GoesBy f g := by
  rw [mem_classesWhere_ofSources]
  refine exists₃_congr fun other g c => and_congr_right fun hget => ?_
  have hg := (mem_sourceClasses (List.mem_of_getElem? hget)).1
  rw [Bool.and_eq_true]
  refine and_congr decide_eq_true_iff ?_
  show (ofSources dir files).isModule other _ = true ↔ _
  rw [isModule, fileAt_ofSources dir hg, ScannedFile.isModule, stem_ofSource, stem_ofSource]
  exact Iff.rfl

end Program

/-- The name of a class stands for that class in its own file, where the name is not imported and
no other class has it, exactly when no other file is a rival: none that goes by the module path of
the file has a class of the name too.  Otherwise it is ambiguous.  The name has no dots if the file
is one that can be read. -/
theorem local_class_resolves_iff (dir : Path) (files : List SourceFile) (file : FileId)
    (f : SourceFile) (name : String) (hfile : files[file]? = some f)
    (hcount : (f.classes.map (·.name)).count name = 1)
    (himport : ((Program.ofSources dir files).fileAt file).imports.get? name = none) :
    (∀ path text, SourceFile.read path text = .ok f → '.' ∉ name.toList) ∧
    ('.' ∉ name.toList → ∃ (id : ClassId) (c : SourceClass),
      (Program.sourceClasses files)[id]? = some (file, f, c) ∧ c.name = name ∧
      ((Program.ofSources dir files).resolveClass file name = .found id ↔
        ∀ other g, files[other]? = some g → other ≠ file → ¬ Program.IsRival f g name) ∧
      ((Program.ofSources dir files).resolveClass file name = .found id ∨
        ∃ count, 2 ≤ count ∧
          (Program.ofSources dir files).resolveClass file name = .ambiguous count)) := by
  obtain ⟨id, c, hget, rfl, hunique⟩ := Program.exists_own_class dir hfile hcount
  have hc := (Program.mem_sourceClasses (List.mem_of_getElem? hget)).2
  refine ⟨fun _ _ hread => SourceFile.not_mem_dot_of_read hread hc, fun hdot => ?_⟩
  have hown := (Program.mem_candidates_iff dir).2
    ⟨file, f, c, hget, rfl, Program.goesBy_self f⟩
  refine ⟨id, c, hget, rfl, ?_⟩
  rw [Program.resolveClass_of_declared hfile hdot ⟨c, hc, rfl⟩ himport,
    Resolution.ofMatches_eq_found_iff]
  refine ⟨?_, or_iff_not_imp_left.2 (Resolution.exists_ambiguous_of_mem hown)⟩
  rw [Program.classesWhere_eq_singleton_iff hown]
  constructor
  · rintro hall other g hg hother ⟨hgoes, c', hc', hname⟩
    obtain ⟨rival, hrival⟩ := Program.exists_index_of_mem_classes hg hc'
    obtain rfl := hall rival
      ((Program.mem_candidates_iff dir).2 ⟨other, g, c', hrival, hname, hgoes⟩)
    exact hother (congrArg Prod.fst (Option.some.inj (hrival.symm.trans hget)))
  · intro hnone other hother
    obtain ⟨otherFile, g, c', hget', hname, hgoes⟩ := (Program.mem_candidates_iff dir).1 hother
    obtain ⟨hg, hc'⟩ := Program.mem_sourceClasses (List.mem_of_getElem? hget')
    by_cases hsame : otherFile = file
    · subst hsame
      obtain rfl : f = g := Option.some.inj (hfile.symm.trans hg)
      exact hunique other c' hget' hname
    · exact absurd ⟨hgoes, c', hc', hname⟩ (hnone otherFile g hg hsame)

/-- A file with one class, called `Row`. -/
def rowFile (path : String) : SourceFile where
  path := ⟨path⟩
  text := "class Row \x7b\x7d"
  imports := []
  classes :=
    [{ name := "Row", parent := none, decorators := [], fields := [], methods := [],
       isAbstract := false, exported := false, span := ⟨.start, ⟨0, 12, 12⟩⟩ }]
  typeNames := []

/-- A class of the same name in a file that goes by another module path is no candidate. -/
theorem local_class_resolves_beside_namesake :
    let files := [rowFile "/src/db.ts", rowFile "/src/db/row.ts"]
    (((rowFile "/src/db.ts").classes.map (·.name)).count "Row" = 1 ∧
      ((Program.ofSources ⟨"/src"⟩ files).fileAt 0).imports.get? "Row" = none) ∧
    (∀ (other : FileId) g, files[other]? = some g → other ≠ 0 →
      ¬ Program.IsRival (rowFile "/src/db.ts") g "Row") ∧
    ∃ id, (Program.ofSources ⟨"/src"⟩ files).resolveClass 0 "Row" = .found id := by
  intro files
  have hnone : ∀ (other : FileId) g, files[other]? = some g → other ≠ 0 →
      ¬ Program.IsRival (rowFile "/src/db.ts") g "Row" := by
    rintro (_ | _ | other) g hg hother hrival
    · exact hother rfl
    · obtain rfl : rowFile "/src/db/row.ts" = g := Option.some.inj hg
      exact absurd hrival.goesBy (by decide +kernel)
    · cases hg
  have hcount : ((rowFile "/src/db.ts").classes.map (·.name)).count "Row" = 1 := by decide
  have himport : ((Program.ofSources ⟨"/src"⟩ files).fileAt 0).imports.get? "Row" = none := rfl
  obtain ⟨id, _, _, _, hfound, _⟩ := (local_class_resolves_iff ⟨"/src"⟩ files 0
    (rowFile "/src/db.ts") "Row" rfl hcount himport).2 (by decide)
  exact ⟨⟨hcount, himport⟩, hnone, id, hfound.2 hnone⟩

/-- A class beside one of the same name in the index file of the directory that is called like its
file, and beside one in a file that differs in its extension only. -/
theorem local_class_ambiguous_beside_index :
    (rowFile "/src/db.ts").classes.map (·.name) = ["Row"] ∧
    ∀ path ∈ ["/src/db/index.ts", "/src/db.tsx"],
      let p := Program.ofSources ⟨"/src"⟩ [rowFile "/src/db.ts", rowFile path]
      (p.fileAt 0).imports.get? "Row" = none ∧ (p.classAt 0).file = 0 ∧
        (p.classAt 0).name = "Row" ∧ p.resolveClass 0 "Row" = .ambiguous 2 ∧
        p.resolveClass 0 "Row" ≠ .found 0 := by
  decide +kernel

end DaoGen
