import DaoGen.Proofs.Program.Renaming
import DaoGen.Proofs.Schema.Imports
set_option autoImplicit false

/-!
# Programs with more files

More files behind those of a program bring more classes, and a name may come to stand for one of
them.  As long as no parent does (`Extends`), the classes of the program keep their parents and
chains, and can be made from as much (`Extends.canMake`): a chain has no more steps than there are
classes that it can meet (`Program.canMakeWithin_of_le`).  A class also keeps the declarations made
on it as long as no entry of a list of tables stands for a later class
(`Extends.declarationsOf`).
-/

namespace DaoGen

open DaoGen.Source (SourceFile SourceClass Decorator Expr)
open DaoGen.Text (afterLast)

/-! ## What a name may stand for -/

/-- Whether a name written in one file may stand for a class of another one. -/
def ScannedFile.reaches (f : ScannedFile) (written : String) (g : ScannedFile) (name : String) :
    Bool :=
  match Program.identityIn written (f.binding? (Program.scopeOf written)) with
  | some ⟨.file path, exported⟩ =>
    name = exported && g.isModule path
  | _ => name = String.ofList (afterLast '.' written.toList)

namespace Program

/-- A written class name stands for the one class that it reaches. -/
theorem resolveClass_eq (p : Program) (file : FileId) (written : String) :
    p.resolveClass file written = .ofMatches (p.classesWhere fun c =>
      (p.fileAt file).reaches written (p.fileAt c.file) c.name) := by
  rw [resolveClass_def, identityOf_eq]
  unfold ScannedFile.reaches
  generalize identityIn written ((p.fileAt file).binding? (scopeOf written)) = identity
  rcases identity with _ | ⟨home, name⟩
  · rfl
  · cases home <;> rfl

/-- Only scanned classes are found. -/
theorem lt_of_resolveClass_eq_found {p : Program} {file : FileId} {written : String}
    {id : ClassId} (h : p.resolveClass file written = .found id) : id < p.classes.length := by
  rw [resolveClass_eq] at h
  generalize hids : p.classesWhere _ = ids at h
  match ids with
  | [] => cases h
  | [found] =>
    cases h
    have hmem : id ∈ p.classesWhere _ := hids ▸ List.mem_singleton_self id
    rw [classesWhere_def] at hmem
    exact List.mem_range.1 (List.mem_filter.1 hmem).1
  | _ :: _ :: _ => cases h

theorem lt_of_parentOf_found {p : Program} {id parent : ClassId}
    (h : p.parentOf id = some parent) : parent < p.classes.length := by
  rw [parentOf_def] at h
  split at h
  · cases h
  · split at h
    · rename_i hfound
      split at h
      · cases h
      · cases h
        exact lt_of_resolveClass_eq_found hfound
    · cases h

/-! ## Enough steps to a constructor -/

section

variable {p : Program}

theorem canMakeWithin_of_fewer {bound : Nat} {id : ClassId} (h : p.canMakeWithin bound id = true) :
    p.canMakeWithin (bound + 1) id = true := by
  induction bound generalizing id with
  | zero => cases h
  | succ bound ih =>
    rw [canMakeWithin_succ] at h ⊢
    cases hshape : (p.classAt id).shape with
    | zeroArgs => rfl
    | requiresArgs =>
      rw [hshape] at h
      cases h
    | inherited =>
      rw [hshape] at h
      cases hparent : p.parentOf id with
      | none => rfl
      | some parent =>
        rw [hparent] at h
        exact ih h

theorem canMakeWithin_mono {bound more : Nat} (hle : bound ≤ more) {id : ClassId}
    (h : p.canMakeWithin bound id = true) : p.canMakeWithin more id = true := by
  induction hle with
  | refl => exact h
  | step _ ih => exact canMakeWithin_of_fewer ih

/-- A class that can be made in some number of steps can be made in as many as there are classes
that cannot: none of these is met on the way. -/
theorem canMakeWithin_unmet {bound : Nat} {met : List ClassId} {id : ClassId}
    (hid : id < p.classes.length) (hmet : ∀ m ∈ met, p.canMakeWithin bound m = false)
    (h : p.canMakeWithin bound id = true) : p.canMakeWithin (p.lookup.unmet met) id = true := by
  induction bound generalizing met id with
  | zero => cases h
  | succ bound ih =>
    have hnew : ¬ met.contains id = true := by
      intro hmem
      rw [hmet id (List.contains_iff_mem.1 hmem)] at h
      cases h
    have hmet' : ∀ m ∈ met, p.canMakeWithin bound m = false := by
      intro m hm
      by_contra hmake
      have hsucc := canMakeWithin_of_fewer (Bool.of_not_eq_false hmake)
      rw [hmet m hm] at hsucc
      cases hsucc
    by_cases hearlier : p.canMakeWithin bound id = true
    · exact ih hid hmet' hearlier
    · have hpos : 0 < p.lookup.unmet met := by
        have hmem : id ∈ (List.range p.classes.length).filter (! met.contains ·) := by
          simp_all
        exact List.length_pos_of_mem hmem
      obtain ⟨k, hk⟩ := Nat.exists_eq_add_of_lt hpos
      rw [Nat.zero_add] at hk
      rw [hk, canMakeWithin_succ]
      rw [canMakeWithin_succ] at h
      cases hshape : (p.classAt id).shape with
      | zeroArgs => rfl
      | requiresArgs =>
        rw [hshape] at h
        cases h
      | inherited =>
        rw [hshape] at h
        cases hparent : p.parentOf id with
        | none => rfl
        | some parent =>
          rw [hparent] at h
          -- the class cannot be made in fewer steps, so it is not met again
          have hmore : ∀ m ∈ id :: met, p.canMakeWithin bound m = false := by
            intro m hm
            rcases List.mem_cons.1 hm with rfl | hm
            · exact Bool.eq_false_iff.2 hearlier
            · exact hmet' m hm
          have hlater := ih (lt_of_parentOf_found hparent) hmore h
          have hlt := unmet_lt hparent hnew
          exact canMakeWithin_mono (by omega) hlater

/-- More steps than classes do not help. -/
theorem canMakeWithin_of_le {bound : Nat} (hle : p.classes.length ≤ bound) {id : ClassId}
    (hid : id < p.classes.length) : p.canMakeWithin bound id = p.canMake id := by
  have hall : p.lookup.unmet [] = p.classes.length := by simp [Lookup.unmet, lookup]
  rw [Bool.eq_iff_iff]
  constructor
  · intro h
    have hunmet := canMakeWithin_unmet hid (fun m hm => absurd hm List.not_mem_nil) h
    rwa [hall] at hunmet
  · exact canMakeWithin_mono hle

end

theorem classAt_mem {p : Program} {id : ClassId} (hid : id < p.classes.length) :
    p.classAt id ∈ p.classes := by
  rw [classAt, List.getElem?_eq_getElem hid]
  exact List.getElem_mem hid

/-- No class of a program from an index on is reached by a name written in a file. -/
def Passes (p : Program) (first : ClassId) (file : FileId) (written : String) : Prop :=
  ∀ c ∈ p.classes.drop first, (p.fileAt file).reaches written (p.fileAt c.file) c.name = false

end Program

/-! ## More files -/

/-- A program has the files and classes of another one and more behind them, which none of its
parents reaches. -/
structure Extends (p q : Program) : Prop where
  files : p.files <+: q.files
  classes : p.classes <+: q.classes
  inFiles : ∀ c ∈ p.classes, c.file < p.files.length
  parents : ∀ c ∈ p.classes, ∀ written, c.parent = some written →
    q.Passes p.classes.length c.file written

namespace Extends

variable {p q : Program} {file : FileId} {written : String}

theorem fileAt (h : Extends p q) (hfile : file < p.files.length) :
    q.fileAt file = p.fileAt file := by
  obtain ⟨more, hmore⟩ := h.files
  rw [Program.fileAt, Program.fileAt, ← hmore, List.getElem?_append_left hfile]

theorem classAt (h : Extends p q) {id : ClassId} (hid : id < p.classes.length) :
    q.classAt id = p.classAt id := by
  obtain ⟨more, hmore⟩ := h.classes
  rw [Program.classAt, Program.classAt, ← hmore, List.getElem?_append_left hid]

/-! ### Names -/

theorem identityOf (h : Extends p q) (hfile : file < p.files.length) (written : String) :
    q.identityOf file written = p.identityOf file written := by
  rw [Program.identityOf_def, Program.identityOf_def, h.fileAt hfile]

theorem decoratorName (h : Extends p q) (hfile : file < p.files.length)
    (qualifier : Option String) (name : String) :
    q.decoratorName file qualifier name = p.decoratorName file qualifier name := by
  simp only [Program.decoratorName, h.fileAt hfile]

/-- The classes that pass a test are the same when none of the later classes passes it. -/
theorem classesWhere (h : Extends p q) {test test' : ScannedClass → Bool}
    (htest : ∀ c ∈ p.classes, test' c = test c)
    (hlater : ∀ c ∈ q.classes.drop p.classes.length, test' c = false) :
    q.classesWhere test' = p.classesWhere test := by
  obtain ⟨more, hmore⟩ := h.classes
  rw [← hmore, List.drop_left] at hlater
  rw [Program.classesWhere_def, Program.classesWhere_def, ← hmore, List.length_append,
    List.range_add, List.filter_append, List.filter_map]
  have hfirst : (List.range p.classes.length).filter (fun id => test' (q.classAt id)) =
      (List.range p.classes.length).filter fun id => test (p.classAt id) := by
    refine List.filter_congr fun id hid => ?_
    have hid := List.mem_range.1 hid
    rw [h.classAt hid, htest _ (Program.classAt_mem hid)]
  have hrest : (List.range more.length).filter
      ((fun id => test' (q.classAt id)) ∘ (p.classes.length + ·)) = [] := by
    refine List.filter_eq_nil_iff.2 fun id hid => ?_
    have hid := List.mem_range.1 hid
    have hclass : q.classAt (p.classes.length + id) = more[id] := by
      rw [Program.classAt, ← hmore, List.getElem?_append_right (Nat.le_add_right _ _),
        Nat.add_sub_cancel_left, List.getElem?_eq_getElem hid]
      rfl
    simp [hclass, hlater _ (List.getElem_mem hid)]
  rw [hfirst, hrest, List.map_nil, List.append_nil]

/-- A name that reaches none of the later classes stands for the same class. -/
theorem resolveClass (h : Extends p q) (hfile : file < p.files.length)
    (hpasses : q.Passes p.classes.length file written) :
    q.resolveClass file written = p.resolveClass file written := by
  rw [Program.resolveClass_eq, Program.resolveClass_eq, h.classesWhere (fun c hc => ?_) hpasses]
  rw [h.fileAt hfile, h.fileAt (h.inFiles c hc)]

/-! ### Parents -/

theorem parentOf (h : Extends p q) {id : ClassId} (hid : id < p.classes.length) :
    q.parentOf id = p.parentOf id := by
  have hmem := Program.classAt_mem hid
  rw [Program.parentOf_def, Program.parentOf_def, h.classAt hid]
  cases hparent : (p.classAt id).parent with
  | none => rfl
  | some written =>
    dsimp only
    rw [h.resolveClass (h.inFiles _ hmem) (h.parents _ hmem written hparent)]

/-- A chain of parents leads through the same classes. -/
theorem ancestryAfter (h : Extends p q) (met : List ClassId) {id : ClassId}
    (hid : id < p.classes.length) : q.ancestryAfter met id = p.ancestryAfter met id := by
  fun_induction Program.ancestryAfter p met id with
  | case1 met id hold => exact Program.ancestryAfter_of_met hold
  | case2 met id hnew parent hparent ih =>
    rw [Program.ancestryAfter_of_parent hnew ((h.parentOf hid).trans hparent),
      ih (Program.lt_of_parentOf_found hparent)]
  | case3 met id hnew hparent =>
    exact Program.ancestryAfter_of_root hnew ((h.parentOf hid).trans hparent)

/-- The chain stays among the classes that were there before. -/
theorem lt_of_mem_ancestryAfter {met : List ClassId} {id c : ClassId}
    (hid : id < p.classes.length) (hc : c ∈ p.ancestryAfter met id) : c < p.classes.length := by
  fun_induction Program.ancestryAfter p met id with
  | case1 => cases hc
  | case2 met id hnew parent hparent ih =>
    rcases List.mem_cons.1 hc with rfl | hc
    · exact hid
    · exact ih (Program.lt_of_parentOf_found hparent) hc
  | case3 => exact List.mem_singleton.1 hc ▸ hid

/-- A class can be made without arguments when it can without the later classes. -/
theorem canMake (h : Extends p q) {id : ClassId} (hid : id < p.classes.length) :
    q.canMake id = p.canMake id := by
  have hwithin : ∀ bound id, id < p.classes.length →
      q.canMakeWithin bound id = p.canMakeWithin bound id := by
    intro bound
    induction bound with
    | zero => exact fun _ _ => rfl
    | succ bound ih =>
      intro id hid
      rw [Program.canMakeWithin_succ, Program.canMakeWithin_succ, h.classAt hid, h.parentOf hid]
      cases (p.classAt id).shape with
      | inherited =>
        cases hparent : p.parentOf id with
        | none => rfl
        | some parent => exact ih parent (Program.lt_of_parentOf_found hparent)
      | zeroArgs => rfl
      | requiresArgs => rfl
  rw [Program.canMake_def q, hwithin _ _ hid, Program.canMakeWithin_of_le h.classes.length_le hid]

/-! ### Declarations -/

theorem isMarked (h : Extends p q) (hfile : file < p.files.length) :
    q.isMarked file = p.isMarked file := by
  funext marker d
  rw [Program.isMarked, Program.isMarked, h.decoratorName hfile]

theorem idFieldOf (h : Extends p q) (hfile : file < p.files.length) (f : SourceFile)
    (c : SourceClass) : DaoGen.idFieldOf q file f c = DaoGen.idFieldOf p file f c := by
  have htest : isIdentifier q file = isIdentifier p file := by
    funext field
    simp only [isIdentifier, h.isMarked hfile]
  rw [DaoGen.idFieldOf, DaoGen.idFieldOf, htest]

theorem ofSource (h : Extends p q) (hfile : file < p.files.length) (f : SourceFile)
    (c : SourceClass) : ScannedClass.ofSource q file f c = ScannedClass.ofSource p file f c := by
  rw [ScannedClass.ofSource, h.idFieldOf hfile]
  rfl

theorem integerValue (h : Extends p q) (hfile : file < p.files.length) (e : Expr) :
    DaoGen.integerValue q file e = DaoGen.integerValue p file e := by
  have hexported : DaoGen.exportedName q file = DaoGen.exportedName p file := by
    funext e
    cases e with
    | name span text => exact congrArg some (h.decoratorName hfile none text)
    | _ => rfl
  match e with
  | .unary _ operator operand =>
    rw [DaoGen.integerValue, DaoGen.integerValue, h.integerValue hfile operand]
  | .member _ target property => rw [DaoGen.integerValue, DaoGen.integerValue, hexported]
  | .number .. | .name .. | .string .. | .boolean .. | .null .. | .array .. | .object ..
  | .call .. | .other .. => rfl

end Extends

/-- The names in the list of tables that an option gives. -/
def tableNames (member : String × Expr) : List String :=
  match member with
  | ("tables", .array _ elements) => elements.filterMap dottedName
  | _ => []

/-- The names in the lists of tables that the options of a decorator give. -/
def Source.Decorator.tableNames (d : Decorator) : List String :=
  match d.arguments with
  | .object _ members :: _ => members.flatMap DaoGen.tableNames
  | _ => []

theorem flatMap_tableNames {f : SourceFile} {marker : Marker} {d : Decorator}
    {members : List (String × Expr)} (h : optionMembers f marker d = .ok members) :
    members.flatMap tableNames = d.tableNames := by
  unfold optionMembers at h
  unfold Source.Decorator.tableNames
  split at h
  · rename_i hnone
    cases h
    rw [hnone]
    rfl
  · rename_i hobject
    cases h
    rw [hobject]
  · cases h

/-- The names of classes in a file that are looked up: parents and entries of lists of tables. -/
def Source.SourceClass.classNames (c : SourceClass) : List String :=
  c.parent.toList ++ c.decorators.flatMap (·.tableNames)

namespace Extends

variable {p q : Program} {file : FileId} {f : SourceFile}

theorem foldl_addTable (h : Extends p q) (hfile : file < p.files.length) {elements : List Expr}
    (hpasses : ∀ written ∈ elements.filterMap dottedName, q.Passes p.classes.length file written)
    (d : HelperDeclaration) :
    elements.foldl (HelperDeclaration.addTable q file f) d =
      elements.foldl (HelperDeclaration.addTable p file f) d := by
  induction elements generalizing d with
  | nil => rw [List.foldl_nil, List.foldl_nil]
  | cons e rest ih =>
    have hrest : ∀ written ∈ rest.filterMap dottedName,
        q.Passes p.classes.length file written := fun written hwritten =>
      hpasses written ((List.sublist_cons_self e rest).filterMap dottedName |>.subset hwritten)
    have hadd : d.addTable q file f e = d.addTable p file f e := by
      unfold HelperDeclaration.addTable
      cases hname : dottedName e with
      | none => rfl
      | some written =>
        have hmem : written ∈ (e :: rest).filterMap dottedName :=
          List.mem_filterMap.2 ⟨e, List.mem_cons_self, hname⟩
        dsimp only
        rw [h.resolveClass hfile (hpasses written hmem)]
    rw [List.foldl_cons, List.foldl_cons, hadd, ih hrest]

theorem addOption_helper (h : Extends p q) (hfile : file < p.files.length)
    {member : String × Expr}
    (hpasses : ∀ written ∈ tableNames member, q.Passes p.classes.length file written)
    (d : HelperDeclaration) : d.addOption q file f member = d.addOption p file f member := by
  obtain ⟨key, value⟩ := member
  unfold HelperDeclaration.addOption
  simp only [h.integerValue hfile]
  split
  · rfl
  · rfl
  · cases value with
    | array span elements => exact h.foldl_addTable hfile hpasses d
    | _ => rfl
  · rfl
  · rfl
  · rfl

theorem helper_ofDecorator (h : Extends p q) (hfile : file < p.files.length) (owner : ClassId)
    {d : Decorator} (hpasses : ∀ written ∈ d.tableNames, q.Passes p.classes.length file written) :
    HelperDeclaration.ofDecorator q file f owner d =
      HelperDeclaration.ofDecorator p file f owner d := by
  have hfold : ∀ (members : List (String × Expr)) (bare : HelperDeclaration),
      (∀ written ∈ members.flatMap tableNames, q.Passes p.classes.length file written) →
      members.foldl (HelperDeclaration.addOption q file f) bare =
        members.foldl (HelperDeclaration.addOption p file f) bare := by
    intro members
    induction members with
    | nil =>
      intro bare _
      rw [List.foldl_nil, List.foldl_nil]
    | cons member rest ih =>
      intro bare hnames
      rw [List.flatMap_cons] at hnames
      rw [List.foldl_cons, List.foldl_cons,
        h.addOption_helper hfile fun written hw => hnames written (List.mem_append_left _ hw)]
      exact ih _ fun written hw => hnames written (List.mem_append_right _ hw)
  unfold HelperDeclaration.ofDecorator
  cases hmembers : optionMembers f .helper d with
  | ok members =>
    rw [← flatMap_tableNames hmembers] at hpasses
    exact hfold members _ hpasses
  | error issue => dsimp only

theorem routine_ofDecorator (h : Extends p q) (hfile : file < p.files.length) (owner : ClassId)
    (m : Source.Method) (d : Decorator) :
    RoutineDeclaration.ofDecorator q file f owner m d =
      RoutineDeclaration.ofDecorator p file f owner m d := by
  have hparameter : RoutineDeclaration.parameterOf q file f =
      RoutineDeclaration.parameterOf p file f := by
    funext parameter
    simp only [RoutineDeclaration.parameterOf, h.identityOf hfile]
  have hoption : RoutineDeclaration.addOption q file f = RoutineDeclaration.addOption p file f := by
    funext r member
    simp only [RoutineDeclaration.addOption, h.integerValue hfile]
  rw [RoutineDeclaration.ofDecorator, hparameter, hoption]
  rfl

/-- A class makes the same declarations. -/
theorem declarationsOf (h : Extends p q) (hfile : file < p.files.length) (owner : ClassId)
    {c : SourceClass}
    (hpasses : ∀ written ∈ c.classNames, q.Passes p.classes.length file written) :
    q.declarationsOf owner file f c = p.declarationsOf owner file f c := by
  have hhelper : ∀ d ∈ c.decorators, HelperDeclaration.ofDecorator q file f owner d =
      HelperDeclaration.ofDecorator p file f owner d := fun d hd =>
    h.helper_ofDecorator hfile owner fun written hw =>
      hpasses written (List.mem_append_right _ (List.mem_flatMap.2 ⟨d, hd, hw⟩))
  rw [Program.declarationsOf, Program.declarationsOf, h.isMarked hfile]
  simp only [h.routine_ofDecorator hfile]
  cases hfind : c.decorators.find? (p.isMarked file .helper) with
  | none => rw [Option.map_none, Option.map_none]
  | some d =>
    rw [Option.map_some, Option.map_some, hhelper d (List.mem_of_find?_eq_some hfind)]

end Extends

end DaoGen
