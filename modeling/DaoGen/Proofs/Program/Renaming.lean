import DaoGen.Program.Ancestry
import DaoGen.Program.OfSources
import DaoGen.Proofs.Reordering
set_option autoImplicit false

/-!
# Programs under other indices

Files and classes are known by their index, and the indices follow from the order of the
files.  Two programs with the same files and classes under other indices say the same:
what a name stands for, what a class extends and what it can be made from follow the
indices, and nothing else changes.
-/

namespace DaoGen

/-! ## Data under other indices -/

/-- A class whose file has another index. -/
def ScannedClass.inFile (file : FileId) (c : ScannedClass) : ScannedClass := { c with file }

/-- A resolution under other indices. -/
def Resolution.rename (τ : ClassId → ClassId) : Resolution → Resolution
  | .found id => .found (τ id)
  | .notFound => .notFound
  | .ambiguous count => .ambiguous count

/-- An entry of a helper's tables under other indices. -/
def TableEntry.rename (τ : ClassId → ClassId) (e : TableEntry) : TableEntry :=
  { e with resolution := e.resolution.rename τ }

/-- A helper declaration under other indices. -/
def HelperDeclaration.rename (τ : ClassId → ClassId) (h : HelperDeclaration) :
    HelperDeclaration :=
  { h with owner := τ h.owner, tables := h.tables.map (·.rename τ) }

/-- A routine declaration under other indices. -/
def RoutineDeclaration.rename (τ : ClassId → ClassId) (r : RoutineDeclaration) :
    RoutineDeclaration :=
  { r with owner := τ r.owner }

/-- A declaration under other indices. -/
def Declaration.rename (τ : ClassId → ClassId) : Declaration → Declaration
  | .table owner => .table (τ owner)
  | .helper h => .helper (h.rename τ)
  | .routine r => .routine (r.rename τ)

/-- A program has the files and classes of another one under other indices. -/
structure Renames (σ : FileId → FileId) (τ : ClassId → ClassId) (p q : Program) : Prop where
  files : Reordering.Moves σ p.files q.files
  classes : Reordering.Moves τ (p.classes.map fun c => c.inFile (σ c.file)) q.classes

/-- A program says the same as another one: it has the same declarations too, in another
order. -/
structure Reorders (σ : FileId → FileId) (τ : ClassId → ClassId) (p q : Program) : Prop
    extends Renames σ τ p q where
  declarations : (p.declarations.map (·.rename τ)).Perm q.declarations

namespace Renames

variable {σ : FileId → FileId} {τ : ClassId → ClassId} {p q : Program}

/-! ## Files and classes -/

theorem fileAt (h : Renames σ τ p q) (file : FileId) : q.fileAt (σ file) = p.fileAt file := by
  rw [Program.fileAt, h.files.getElem?]
  rfl

theorem length_classes (h : Renames σ τ p q) : q.classes.length = p.classes.length := by
  rw [h.classes.length_eq, List.length_map]

theorem lt_iff (h : Renames σ τ p q) (id : ClassId) :
    τ id < q.classes.length ↔ id < p.classes.length := by
  rw [h.classes.lt_iff, List.length_map]

/-- A class is the same under its other index, in the same file. -/
theorem classAt (h : Renames σ τ p q) {id : ClassId} (hid : id < p.classes.length) :
    q.classAt (τ id) = (p.classAt id).inFile (σ (p.classAt id).file) := by
  rw [Program.classAt, Program.classAt, h.classes.getElem?, List.getElem?_map]
  simp [hid]

/-- An index of no class becomes an index of no class. -/
theorem classAt_of_le (h : Renames σ τ p q) {id : ClassId} (hid : p.classes.length ≤ id) :
    q.classAt (τ id) = p.classAt id := by
  rw [Program.classAt, Program.classAt, h.classes.getElem?, List.getElem?_map]
  simp [hid]

/-- What does not depend on the file is the same for every index. -/
theorem eq_of_inFile (h : Renames σ τ p q) {β : Type} (view : ScannedClass → β)
    (hview : ∀ file c, view (c.inFile file) = view c) (id : ClassId) :
    view (q.classAt (τ id)) = view (p.classAt id) := by
  by_cases hid : id < p.classes.length
  · rw [h.classAt hid, hview]
  · rw [h.classAt_of_le (Nat.le_of_not_lt hid)]

theorem name_classAt (h : Renames σ τ p q) (id : ClassId) :
    (q.classAt (τ id)).name = (p.classAt id).name :=
  h.eq_of_inFile (·.name) (fun _ _ => rfl) id

/-! ## Names -/

theorem identityOf (h : Renames σ τ p q) (file : FileId) (written : String) :
    q.identityOf (σ file) written = p.identityOf file written := by
  rw [Program.identityOf_def, Program.identityOf_def, h.fileAt]

theorem decoratorName (h : Renames σ τ p q) (file : FileId) (qualifier : Option String)
    (name : String) :
    q.decoratorName (σ file) qualifier name = p.decoratorName file qualifier name := by
  simp only [Program.decoratorName, h.fileAt]

theorem isModule (h : Renames σ τ p q) (file : FileId) (path : Path) :
    q.isModule (σ file) path = p.isModule file path := by
  simp only [Program.isModule, h.fileAt]

/-- The classes that pass a test are the same ones in another order. -/
theorem classesWhere (h : Renames σ τ p q) {test test' : ScannedClass → Bool}
    (htest : ∀ c, test' (c.inFile (σ c.file)) = test c) :
    ((p.classesWhere test).map τ).Perm (q.classesWhere test') := by
  have hrange := h.classes.map_range
  rw [List.length_map] at hrange
  have hfilter := hrange.filter fun id => test' (q.classAt id)
  rw [List.filter_map, ← Program.classesWhere_def] at hfilter
  have heq : (List.range p.classes.length).filter ((fun id => test' (q.classAt id)) ∘ τ) =
      p.classesWhere test := by
    rw [Program.classesWhere_def]
    refine List.filter_congr fun id hid => ?_
    rw [Function.comp, h.classAt (List.mem_range.1 hid), htest]
  rw [heq] at hfilter
  exact hfilter

theorem ofMatches_perm {ids others : List ClassId} (h : (ids.map τ).Perm others) :
    Resolution.ofMatches others = (Resolution.ofMatches ids).rename τ := by
  match ids with
  | [] =>
    rw [List.nil_perm.1 h]
    rfl
  | [id] =>
    rw [List.map_singleton, List.singleton_perm] at h
    rw [← h]
    rfl
  | a :: b :: rest =>
    have hlength := h.length_eq
    match others with
    | [] => simp at hlength
    | [_] => simp at hlength
    | c :: d :: others =>
      simp [Resolution.ofMatches, Resolution.rename] at hlength ⊢
      omega

/-- A written class name stands for the same class. -/
theorem resolveClass (h : Renames σ τ p q) (file : FileId) (written : String) :
    q.resolveClass (σ file) written = (p.resolveClass file written).rename τ := by
  rw [Program.resolveClass_def, Program.resolveClass_def, h.identityOf]
  split
  · exact ofMatches_perm (h.classesWhere fun c => congrArg (_ && ·) (h.isModule c.file _))
  · exact ofMatches_perm (h.classesWhere fun _ => rfl)

/-! ## Parents -/

theorem parentOf (h : Renames σ τ p q) (id : ClassId) :
    q.parentOf (τ id) = (p.parentOf id).map τ := by
  by_cases hid : id < p.classes.length
  · rw [Program.parentOf_def, Program.parentOf_def, h.classAt hid]
    cases hparent : (p.classAt id).parent with
    | none => simp [ScannedClass.inFile, hparent]
    | some written =>
      simp only [ScannedClass.inFile, hparent, h.resolveClass]
      cases p.resolveClass (p.classAt id).file written with
      | found parent =>
        simp only [Resolution.rename, h.classes.injective.eq_iff]
        split <;> rfl
      | notFound => rfl
      | ambiguous count => rfl
  · have hnone : p.parentOf id = none :=
      Option.eq_none_iff_forall_ne_some.2 fun _ hsome =>
        hid (Program.lt_of_parentOf_eq_some hsome)
    have hnone' : q.parentOf (τ id) = none :=
      Option.eq_none_iff_forall_ne_some.2 fun _ hsome =>
        hid ((h.lt_iff id).1 (Program.lt_of_parentOf_eq_some hsome))
    rw [hnone, hnone']
    rfl

/-- A chain of parents leads through the same classes. -/
theorem ancestryAfter (h : Renames σ τ p q) (met : List ClassId) (id : ClassId) :
    q.ancestryAfter (met.map τ) (τ id) = (p.ancestryAfter met id).map τ := by
  have hmet : ∀ (met : List ClassId) (id : ClassId),
      (met.map τ).contains (τ id) = met.contains id := by
    intro met id
    rw [Bool.eq_iff_iff, List.contains_iff_mem, List.contains_iff_mem,
      List.mem_map_of_injective h.classes.injective]
  fun_induction Program.ancestryAfter p met id with
  | case1 met id hold =>
    rw [← hmet] at hold
    rw [Program.ancestryAfter_of_met hold]
    rfl
  | case2 met id hnew parent hparent ih =>
    rw [← hmet] at hnew
    have hparent' : q.parentOf (τ id) = some (τ parent) := by
      rw [h.parentOf, hparent, Option.map_some]
    rw [Program.ancestryAfter_of_parent hnew hparent', List.map_cons, ← ih, List.map_cons]
  | case3 met id hnew hparent =>
    rw [← hmet] at hnew
    have hparent' : q.parentOf (τ id) = none := by
      rw [h.parentOf, hparent, Option.map_none]
    rw [Program.ancestryAfter_of_root hnew hparent']
    rfl

theorem ancestry (h : Renames σ τ p q) (id : ClassId) :
    q.ancestry (τ id) = (p.ancestry id).map τ :=
  h.ancestryAfter [] id

/-- A class can be made without arguments under either index. -/
theorem canMake (h : Renames σ τ p q) (id : ClassId) : q.canMake (τ id) = p.canMake id := by
  have hwithin : ∀ bound id, q.canMakeWithin bound (τ id) = p.canMakeWithin bound id := by
    intro bound
    induction bound with
    | zero => intro id; rfl
    | succ bound ih =>
      intro id
      rw [Program.canMakeWithin_succ, Program.canMakeWithin_succ, h.parentOf,
        h.eq_of_inFile (·.shape) (fun _ _ => rfl)]
      cases (p.classAt id).shape with
      | inherited =>
        cases p.parentOf id with
        | none => rfl
        | some parent => exact ih parent
      | zeroArgs => rfl
      | requiresArgs => rfl
  rw [Program.canMake_def, Program.canMake_def, h.length_classes, hwithin]

/-! ## Declarations -/

theorem isMarked (h : Renames σ τ p q) (file : FileId) (marker : Marker) (d : Source.Decorator) :
    q.isMarked (σ file) marker d = p.isMarked file marker d := by
  rw [Program.isMarked, Program.isMarked, h.decoratorName]

theorem idFieldOf (h : Renames σ τ p q) (file : FileId) (f : Source.SourceFile)
    (c : Source.SourceClass) : DaoGen.idFieldOf q (σ file) f c = DaoGen.idFieldOf p file f c := by
  have htest : isIdentifier q (σ file) = isIdentifier p file := by
    funext field
    simp only [isIdentifier, h.isMarked]
  rw [DaoGen.idFieldOf, DaoGen.idFieldOf, htest]

/-- A scanned class is the same in a file of another index. -/
theorem ofSource (h : Renames σ τ p q) (file : FileId) (f : Source.SourceFile)
    (c : Source.SourceClass) :
    ScannedClass.ofSource q (σ file) f c = (ScannedClass.ofSource p file f c).inFile (σ file) := by
  rw [ScannedClass.ofSource, h.idFieldOf]
  rfl

theorem exportedName (h : Renames σ τ p q) (file : FileId) (e : Source.Expr) :
    DaoGen.exportedName q (σ file) e = DaoGen.exportedName p file e := by
  cases e with
  | name span text => exact congrArg some (h.decoratorName file none text)
  | _ => rfl

/-- A number, or the member that stands for an open origin, means the same. -/
theorem integerValue (h : Renames σ τ p q) (file : FileId) (e : Source.Expr) :
    DaoGen.integerValue q (σ file) e = DaoGen.integerValue p file e := by
  match e with
  | .number .. => rfl
  | .unary _ operator operand =>
    rw [DaoGen.integerValue, DaoGen.integerValue, h.integerValue file operand]
  | .member _ target property =>
    rw [DaoGen.integerValue, DaoGen.integerValue, h.exportedName]
  | .name .. | .string .. | .boolean .. | .null .. | .array .. | .object .. | .call ..
  | .other .. => rfl

theorem addTable (h : Renames σ τ p q) (file : FileId) (f : Source.SourceFile)
    (d : HelperDeclaration) (e : Source.Expr) :
    (d.rename τ).addTable q (σ file) f e = (d.addTable p file f e).rename τ := by
  rw [HelperDeclaration.addTable, HelperDeclaration.addTable]
  cases dottedName e with
  | none => rfl
  | some written => simp [HelperDeclaration.rename, TableEntry.rename, h.resolveClass]

theorem addOption_helper (h : Renames σ τ p q) (file : FileId) (f : Source.SourceFile)
    (d : HelperDeclaration) (member : String × Source.Expr) :
    (d.rename τ).addOption q (σ file) f member = (d.addOption p file f member).rename τ := by
  obtain ⟨key, value⟩ := member
  unfold HelperDeclaration.addOption
  simp only [h.integerValue]
  split
  · cases value <;> rfl
  · cases DaoGen.integerValue p file value <;> rfl
  · cases value with
    | array span elements => exact List.foldl_hom _ fun d e => h.addTable file f d e
    | _ => rfl
  · cases value <;> rfl
  · cases value <;> rfl
  · rfl

theorem helper_ofDecorator (h : Renames σ τ p q) (file : FileId) (f : Source.SourceFile)
    (owner : ClassId) (d : Source.Decorator) :
    HelperDeclaration.ofDecorator q (σ file) f (τ owner) d =
      (HelperDeclaration.ofDecorator p file f owner d).rename τ := by
  unfold HelperDeclaration.ofDecorator
  cases optionMembers f .helper d with
  | ok members =>
    dsimp only
    rw [← List.foldl_hom _ fun d member => h.addOption_helper file f d member]
    rfl
  | error issue => rfl

theorem parameterOf (h : Renames σ τ p q) (file : FileId) (f : Source.SourceFile) :
    RoutineDeclaration.parameterOf q (σ file) f = RoutineDeclaration.parameterOf p file f := by
  funext parameter
  simp only [RoutineDeclaration.parameterOf, h.identityOf]

theorem addOption_routine (h : Renames σ τ p q) (file : FileId) (f : Source.SourceFile)
    (r : RoutineDeclaration) (member : String × Source.Expr) :
    (r.rename τ).addOption q (σ file) f member = (r.addOption p file f member).rename τ := by
  obtain ⟨key, value⟩ := member
  unfold RoutineDeclaration.addOption
  simp only [h.integerValue]
  split
  · cases DaoGen.integerValue p file value with
    | some version =>
      dsimp only
      split <;> rfl
    | none => rfl
  · rfl

theorem routine_ofDecorator (h : Renames σ τ p q) (file : FileId) (f : Source.SourceFile)
    (owner : ClassId) (m : Source.Method) (d : Source.Decorator) :
    RoutineDeclaration.ofDecorator q (σ file) f (τ owner) m d =
      (RoutineDeclaration.ofDecorator p file f owner m d).rename τ := by
  unfold RoutineDeclaration.ofDecorator
  rw [h.parameterOf]
  cases optionMembers f .upgrade d with
  | ok members =>
    dsimp only
    rw [← List.foldl_hom _ fun r member => h.addOption_routine file f r member]
    rfl
  | error issue => rfl

/-- A class makes the same declarations. -/
theorem declarationsOf (h : Renames σ τ p q) (owner : ClassId) (file : FileId)
    (f : Source.SourceFile) (c : Source.SourceClass) :
    q.declarationsOf (τ owner) (σ file) f c =
      (p.declarationsOf owner file f c).map (·.rename τ) := by
  have hmarked : q.isMarked (σ file) = p.isMarked file := by
    funext marker d
    exact h.isMarked file marker d
  rw [Program.declarationsOf, Program.declarationsOf, hmarked, List.map_append, List.map_append]
  refine congr (congrArg _ (congr (congrArg _ ?_) ?_)) ?_
  · split <;> rfl
  · cases c.decorators.find? (p.isMarked file .helper) with
    | none => rfl
    | some d =>
      simp only [Option.map_some, Option.toList_some, List.map_cons, List.map_nil,
        h.helper_ofDecorator]
      rfl
  · simp only [List.map_flatMap, List.map_map, h.routine_ofDecorator]
    rfl

end Renames

/-! ## Reordered declarations -/

namespace Reorders

variable {σ : FileId → FileId} {τ : ClassId → ClassId} {p q : Program}

theorem filterMap_perm (h : Reorders σ τ p q) {β : Type} {view : Declaration → Option β}
    {f : β → β} (hview : ∀ d : Declaration, view (d.rename τ) = (view d).map f) :
    ((p.declarations.filterMap view).map f).Perm (q.declarations.filterMap view) := by
  have hperm := h.declarations.filterMap view
  rw [List.filterMap_map] at hperm
  rw [List.map_filterMap]
  exact (List.Perm.of_eq (List.filterMap_congr fun d _ => (hview d).symm)).trans hperm

theorem tables_perm (h : Reorders σ τ p q) : (p.tables.map τ).Perm q.tables :=
  h.filterMap_perm fun d => by cases d <;> rfl

theorem helpers_perm (h : Reorders σ τ p q) : (p.helpers.map (·.rename τ)).Perm q.helpers :=
  h.filterMap_perm fun d => by cases d <;> rfl

theorem routines_perm (h : Reorders σ τ p q) : (p.routines.map (·.rename τ)).Perm q.routines :=
  h.filterMap_perm fun d => by cases d <;> rfl

end Reorders

/-! ## Reordered source files -/

namespace Program

open Source (SourceFile)

variable {σ : FileId → FileId} {files files' : List SourceFile}

/-- The classes of reordered files are the same, under the moved indices of their files. -/
theorem sourceClasses_perm (h : Reordering.Moves σ files files') :
    ((sourceClasses files).map fun x => (σ x.1, x.2.1, x.2.2)).Perm (sourceClasses files') := by
  have hperm := h.map_zipIdx.flatMap_right fun x => x.1.classes.map fun c => (x.2, x.1, c)
  rw [List.flatMap_map] at hperm
  simp only [sourceClasses, List.map_flatMap, List.map_map]
  exact hperm

theorem renames_ofFiles (sourceDir : Path) (h : Reordering.Moves σ files files') :
    Renames σ id (ofFiles sourceDir files) (ofFiles sourceDir files') :=
  ⟨h.map ScannedFile.ofSource, Function.injective_id, fun _ => rfl, rfl⟩

theorem renames_ofClasses (sourceDir : Path) {τ : ClassId → ClassId}
    (hσ : Reordering.Moves σ files files')
    (hτ : Reordering.Moves τ ((sourceClasses files).map fun x => (σ x.1, x.2.1, x.2.2))
      (sourceClasses files')) :
    Renames σ τ (ofClasses sourceDir files) (ofClasses sourceDir files') := by
  have hclasses := hτ.map fun x =>
    ScannedClass.ofSource (ofFiles sourceDir files') x.1 x.2.1 x.2.2
  simp only [List.map_map, Function.comp_def, (renames_ofFiles sourceDir hσ).ofSource] at hclasses
  refine ⟨hσ.map ScannedFile.ofSource, ?_⟩
  simp only [ofClasses, List.map_map]
  exact hclasses

/-- The program of reordered files says the same. -/
theorem exists_reorders_of_perm (sourceDir : Path) (h : files.Perm files') :
    ∃ σ τ, Reorders σ τ (ofSources sourceDir files) (ofSources sourceDir files') := by
  obtain ⟨σ, hσ⟩ := Reordering.exists_moves_of_perm h
  obtain ⟨τ, hτ⟩ := Reordering.exists_moves_of_perm (sourceClasses_perm hσ)
  have hknown := renames_ofClasses sourceDir hσ hτ
  refine ⟨σ, τ, ⟨hknown.files, hknown.classes⟩, ?_⟩
  have hperm := hτ.map_zipIdx.flatMap_right fun x =>
    declarationsOf (ofClasses sourceDir files') x.2 x.1.1 x.1.2.1 x.1.2.2
  rw [List.zipIdx_map, List.map_map, List.flatMap_map] at hperm
  simp only [Function.comp, Prod.map, id, hknown.declarationsOf] at hperm
  simp only [ofSources, List.map_flatMap]
  exact hperm

/-! ## Owners -/

theorem foldl_owner {β : Type} {add : HelperDeclaration → β → HelperDeclaration}
    (h : ∀ d x, (add d x).owner = d.owner) (d : HelperDeclaration) (l : List β) :
    (l.foldl add d).owner = d.owner := by
  induction l generalizing d with
  | nil => rfl
  | cons x l ih => exact (ih (add d x)).trans (h d x)

theorem owner_addTable (p : Program) (file : FileId) (f : SourceFile) (d : HelperDeclaration)
    (e : Source.Expr) : (d.addTable p file f e).owner = d.owner := by
  unfold HelperDeclaration.addTable
  split <;> rfl

theorem owner_addOption (p : Program) (file : FileId) (f : SourceFile) (d : HelperDeclaration)
    (member : String × Source.Expr) : (d.addOption p file f member).owner = d.owner := by
  unfold HelperDeclaration.addOption
  dsimp only
  split
  · split <;> rfl
  · split <;> rfl
  · split
    · exact foldl_owner (owner_addTable p file f) d _
    · rfl
  · split <;> rfl
  · split <;> rfl
  · rfl

theorem owner_ofDecorator (p : Program) (file : FileId) (f : SourceFile) (owner : ClassId)
    (d : Source.Decorator) : (HelperDeclaration.ofDecorator p file f owner d).owner = owner := by
  unfold HelperDeclaration.ofDecorator
  split
  · exact foldl_owner (owner_addOption p file f) _ _
  · rfl

/-- A helper is declared on a scanned class. -/
theorem owner_lt_of_mem_helpers {sourceDir : Path} {d : HelperDeclaration}
    (hd : d ∈ (ofSources sourceDir files).helpers) :
    d.owner < (ofSources sourceDir files).classes.length := by
  obtain ⟨declaration, hmem, hhelper⟩ := List.mem_filterMap.1 hd
  obtain ⟨owner, hlt, file, f, c, -, hdeclared⟩ := exists_of_mem_declarations hmem
  rcases mem_declarationsOf hdeclared with rfl | ⟨decorator, -, rfl⟩ | ⟨m, -, decorator, -, rfl⟩
  · cases hhelper
  · obtain rfl := Option.some.inj hhelper
    rw [owner_ofDecorator]
    exact hlt
  · cases hhelper

end Program

end DaoGen
