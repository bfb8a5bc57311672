import DaoGen.Program.OfSources
import DaoGen.Proofs.Schema.Answers
import DaoGen.Proofs.Source.Outline
set_option autoImplicit false

/-!
# Programs without their places

The outline of a program leaves out the texts of its files, where things stand in them, and the
wording of the types of identifying fields.  Building a program goes along with taking outlines
(`Program.outline_ofSources`): files with the same outlines make programs with the same outline.
The outline of a program determines what its classes extend (`Program.parentOf_outline`) and its
tables with their id types (`Schema.Registry.outlines_ofProgram`).
-/

namespace DaoGen

open DaoGen.Source (SourceFile SourceClass Decorator Method Expr keywordOnly)

/-! ## Data without places -/

/-- A place by its file. -/
def Place.outline (place : Place) : Place := ⟨place.path, "", default⟩

/-- A value without its place. -/
def Located.outline {α : Type} (l : Located α) : Located α := { l with place := l.place.outline }

/-- A scanned file without its text. -/
def ScannedFile.outline (f : ScannedFile) : ScannedFile := { f with text := "" }

/-- A type without its wording. -/
def DeclaredType.outline (t : DeclaredType) : DeclaredType :=
  { t with text := "", primitive := t.primitive.map keywordOnly }

/-- An identifying field without its place and without the wording of its type. -/
def IdField.outline (f : IdField) : IdField :=
  { f with type := f.type.map (·.outline), place := f.place.outline }

/-- A scanned class without its places. -/
def ScannedClass.outline (c : ScannedClass) : ScannedClass :=
  { c with idField := c.idField.map (·.outline), place := c.place.outline }

/-- An entry of a list of tables without its place. -/
def TableEntry.outline (e : TableEntry) : TableEntry := { e with place := e.place.outline }

/-- An issue without its place. -/
def ArgumentIssue.outline (i : ArgumentIssue) : ArgumentIssue := { i with place := i.place.outline }

/-- A helper declaration without its places. -/
def HelperDeclaration.outline (h : HelperDeclaration) : HelperDeclaration :=
  { h with
    name := h.name.map (·.outline)
    version := h.version.map (·.outline)
    tables := h.tables.map (·.outline)
    issues := h.issues.map (·.outline)
    place := h.place.outline }

/-- A parameter of a routine without its place. -/
def RoutineParameter.outline (r : RoutineParameter) : RoutineParameter :=
  { r with place := r.place.outline }

/-- A routine declaration without its places. -/
def RoutineDeclaration.outline (r : RoutineDeclaration) : RoutineDeclaration :=
  { r with
    parameters := r.parameters.map (·.outline)
    fromVersion := r.fromVersion.map (·.outline)
    toVersion := r.toVersion.map (·.outline)
    issues := r.issues.map (·.outline)
    place := r.place.outline
    decoratorPlace := r.decoratorPlace.outline }

/-- A declaration without its places. -/
def Declaration.outline : Declaration → Declaration
  | table owner => table owner
  | helper h => helper h.outline
  | routine r => routine r.outline

/-- A program without its places. -/
def Program.outline (p : Program) : Program :=
  { p with
    files := p.files.map (·.outline)
    classes := p.classes.map (·.outline)
    declarations := p.declarations.map (·.outline) }

/-! ## Names in the outline of a program -/

namespace Program

variable (p : Program)

theorem fileAt_outline (file : FileId) : p.outline.fileAt file = (p.fileAt file).outline := by
  unfold fileAt
  rw [show p.outline.files = p.files.map (·.outline) from rfl, List.getElem?_map]
  cases p.files[file]? <;> rfl

theorem classAt_outline (id : ClassId) : p.outline.classAt id = (p.classAt id).outline := by
  unfold classAt
  rw [show p.outline.classes = p.classes.map (·.outline) from rfl, List.getElem?_map]
  cases p.classes[id]? <;> rfl

theorem homeOf_outline (id : ClassId) : p.outline.homeOf id = p.homeOf id := by
  rw [homeOf_def, homeOf_def, fileOf, fileOf, classAt_outline, fileAt_outline]
  rfl

theorem identityOf_outline (file : FileId) (written : String) :
    p.outline.identityOf file written = p.identityOf file written := by
  rw [identityOf_def, fileAt_outline]
  rfl

theorem importRequest_outline (file : FileId) (written : String) :
    p.outline.importRequest file written = p.importRequest file written := by
  rw [importRequest, fileAt_outline]
  rfl

theorem decoratorName_outline (file : FileId) (qualifier : Option String) (name : String) :
    p.outline.decoratorName file qualifier name = p.decoratorName file qualifier name := by
  unfold decoratorName
  rw [fileAt_outline]
  rfl

theorem isModule_outline (file : FileId) (path : Path) :
    p.outline.isModule file path = p.isModule file path := by
  rw [isModule, fileAt_outline]
  rfl

theorem classesWhere_outline {test : ScannedClass → Bool}
    (htest : ∀ c, test c.outline = test c) : p.outline.classesWhere test = p.classesWhere test := by
  have hlength : p.outline.classes.length = p.classes.length := List.length_map _
  rw [classesWhere_def, classesWhere_def, hlength]
  exact List.filter_congr fun id _ => by rw [classAt_outline, htest]

/-- A written name of a class is resolved to the same class. -/
theorem resolveClass_outline (file : FileId) (written : String) :
    p.outline.resolveClass file written = p.resolveClass file written := by
  rw [resolveClass_def, resolveClass_def, identityOf_outline]
  simp only [isModule_outline]
  split
  · rw [classesWhere_outline p fun c => rfl]
  · rw [classesWhere_outline p fun c => rfl]

/-- A class extends the same class. -/
theorem parentOf_outline (id : ClassId) : p.outline.parentOf id = p.parentOf id := by
  have hparent : (p.outline.classAt id).parent = (p.classAt id).parent := by
    rw [classAt_outline]
    rfl
  have hfile : (p.outline.classAt id).file = (p.classAt id).file := by
    rw [classAt_outline]
    rfl
  simp only [parentOf_def, hparent, hfile, resolveClass_outline]

theorem ancestry_outline (id : ClassId) : p.outline.ancestry id = p.ancestry id := by
  have hafter (met : List ClassId) :
      p.outline.ancestryAfter met id = p.ancestryAfter met id := by
    fun_induction ancestryAfter p met id with
    | case1 met id hold => exact ancestryAfter_of_met hold
    | case2 met id hnew parent hparent ih =>
      rw [ancestryAfter_of_parent hnew ((p.parentOf_outline id).trans hparent), ih]
    | case3 met id hnew hparent =>
      exact ancestryAfter_of_root hnew ((p.parentOf_outline id).trans hparent)
  exact hafter []

end Program

/-! ## Reading from outlines -/

section

variable (p : Program) (file : FileId) (f : SourceFile)

theorem isMarked_outline (marker : Marker) (d : Decorator) :
    p.outline.isMarked file marker d.outline = p.isMarked file marker d := by
  rw [Program.isMarked, Program.isMarked, Program.decoratorName_outline]
  unfold Program.decoratorName Decorator.outline
  cases d.qualifier <;> rfl

theorem exportedName_outline (e : Expr) :
    exportedName p.outline file e.outline = exportedName p file e := by
  cases e with
  | name span text => exact congrArg some (p.decoratorName_outline file none text)
  | _ => rfl

theorem integerValue_outline (e : Expr) :
    integerValue p.outline file e.outline = integerValue p file e := by
  match e with
  | .unary _ operator operand =>
    rw [Expr.outline, integerValue, integerValue, integerValue_outline operand]
  | .member _ target property =>
    rw [Expr.outline, integerValue, integerValue, exportedName_outline]
  | .number .. | .name .. | .string .. | .boolean .. | .null .. | .array .. | .object ..
  | .call .. | .other .. => rfl

theorem dottedName_outline (e : Expr) : dottedName e.outline = dottedName e := by
  match e with
  | .member _ target property =>
    rw [Expr.outline, dottedName, dottedName, dottedName_outline target]
  | .name .. | .number .. | .unary .. | .string .. | .boolean .. | .null .. | .array ..
  | .object .. | .call .. | .other .. => rfl

theorem marksIdentifier_outline (d : Decorator) :
    marksIdentifier d.outline = marksIdentifier d := by
  have hhead : d.outline.arguments.head? = d.arguments.head?.map (·.outline) := by
    rw [Decorator.outline, List.head?_map]
  unfold marksIdentifier
  rw [hhead]
  cases d.arguments.head? with
  | none => rfl
  | some options =>
    dsimp only [Option.map_some]
    congr
    funext key
    rw [Expr.property?_outline]
    cases options.property? key with
    | none => rfl
    | some value => cases value <;> rfl

/-! ### Files and classes -/

theorem ofImports_outline (dir : Path) (imports : List Source.Import) :
    ImportMap.ofImports dir (imports.map (·.outline)) = ImportMap.ofImports dir imports := by
  unfold ImportMap.ofImports
  rw [List.foldl_map]
  rfl

theorem ofSource_outline : ScannedFile.ofSource f.outline = (ScannedFile.ofSource f).outline := by
  have hnames : f.outline.classes.map (·.name) = f.classes.map (·.name) := by
    rw [SourceFile.outline, List.map_map]
    rfl
  have himports (dir : Path) :
      ImportMap.ofImports dir f.outline.imports = ImportMap.ofImports dir f.imports :=
    ofImports_outline dir f.imports
  unfold ScannedFile.ofSource
  dsimp only
  rw [hnames, himports]
  rfl

theorem ofWritten_outline (a : Source.Annotation) :
    DeclaredType.ofWritten a.outline = (DeclaredType.ofWritten a).outline := by
  have hreferences := a.shape.references_outline
  unfold DeclaredType.ofWritten DeclaredType.outline Source.Annotation.outline
  rw [hreferences]
  cases a.shape <;> rfl

theorem isIdentifier_outline (field : Source.Field) :
    isIdentifier p.outline file field.outline = isIdentifier p file field := by
  unfold isIdentifier Source.Field.outline
  rw [List.any_map]
  simp only [Function.comp_def, isMarked_outline, marksIdentifier_outline]

theorem idFieldOf_outline (c : SourceClass) :
    idFieldOf p.outline file f.outline c.outline = (idFieldOf p file f c).map (·.outline) := by
  have htest : isIdentifier p.outline file ∘ Source.Field.outline = isIdentifier p file :=
    funext (isIdentifier_outline p file)
  unfold idFieldOf
  rw [SourceClass.outline, List.find?_map, htest]
  cases c.fields.find? (isIdentifier p file) with
  | none => rfl
  | some field =>
    have htype : field.outline.type.map DeclaredType.ofWritten =
        (field.type.map DeclaredType.ofWritten).map (·.outline) := by
      unfold Source.Field.outline
      cases field.type with
      | none => rfl
      | some a => exact congrArg some (ofWritten_outline a)
    rw [Option.map_some, Option.map_some, Option.map_some, htype]
    rfl

theorem shape_outline (c : SourceClass) :
    ConstructorShape.ofClass c.outline = ConstructorShape.ofClass c := by
  have hconstructors : c.outline.constructors = c.constructors.map (·.outline) := by
    unfold SourceClass.constructors SourceClass.outline
    rw [List.filter_map]
    rfl
  have hempty : c.outline.constructors.isEmpty = c.constructors.isEmpty := by
    rw [hconstructors, List.isEmpty_map]
  have hcallable : callableConstructors c.outline = (callableConstructors c).map (·.outline) := by
    unfold callableConstructors
    have hoverloads : c.outline.constructors.filter (!·.hasBody) =
        (c.constructors.filter (!·.hasBody)).map (·.outline) := by
      rw [hconstructors, List.filter_map]
      rfl
    dsimp only
    rw [hoverloads, List.isEmpty_map, hconstructors, ← apply_ite (List.map _)]
  have homitted : ∀ m : Method, m.outline.parameters.all (·.canBeOmitted) =
      m.parameters.all (·.canBeOmitted) := by
    intro m
    unfold Method.outline
    rw [List.all_map]
    simp only [Function.comp_def, Source.Parameter.canBeOmitted_outline]
  unfold ConstructorShape.ofClass
  rw [hempty, hcallable, List.any_map]
  simp only [Function.comp_def, homitted]

theorem class_outline (c : SourceClass) :
    ScannedClass.ofSource p.outline file f.outline c.outline =
      (ScannedClass.ofSource p file f c).outline := by
  unfold ScannedClass.ofSource
  rw [idFieldOf_outline, shape_outline]
  rfl

/-! ### Options -/

theorem issueAt_outline (marker : Marker) (argument expected : String) (e : Expr) :
    issueAt f.outline marker argument expected e.outline =
      (issueAt f marker argument expected e).outline := by
  unfold issueAt
  rw [Expr.span_outline]
  rfl

theorem locatedAt_outline {α : Type} (e : Expr) (value : α) :
    locatedAt f.outline e.outline value = (locatedAt f e value).outline := by
  unfold locatedAt
  rw [Expr.span_outline]
  rfl

theorem optionMembers_outline (marker : Marker) (d : Decorator) :
    optionMembers f.outline marker d.outline =
      match optionMembers f marker d with
      | .ok members => .ok (members.map fun m => (m.1, m.2.outline))
      | .error issue => .error issue.outline := by
  unfold optionMembers
  rw [show d.outline.arguments = d.arguments.map (·.outline) from rfl]
  cases d.arguments with
  | nil => rfl
  | cons options rest =>
    cases options with
    | object span members => exact congrArg Except.ok (Expr.outlineMembers_eq_map members)
    | _ => rfl

/-! ### Helpers -/

namespace HelperDeclaration

theorem addIssue_outline (h : HelperDeclaration) (issue : ArgumentIssue) :
    h.outline.addIssue issue.outline = (h.addIssue issue).outline := by
  unfold addIssue outline
  rw [List.map_append]
  rfl

theorem addTable_outline (h : HelperDeclaration) (e : Expr) :
    h.outline.addTable p.outline file f.outline e.outline = (h.addTable p file f e).outline := by
  unfold addTable
  rw [dottedName_outline, issueAt_outline, addIssue_outline]
  cases dottedName e with
  | none => rfl
  | some written =>
    dsimp only
    rw [p.resolveClass_outline, Expr.span_outline]
    unfold outline
    rw [List.map_append]
    rfl

theorem addOption_outline (h : HelperDeclaration) (member : String × Expr) :
    h.outline.addOption p.outline file f.outline (member.1, member.2.outline) =
      (h.addOption p file f member).outline := by
  obtain ⟨key, value⟩ := member
  unfold addOption
  simp only [integerValue_outline, issueAt_outline, addIssue_outline, locatedAt_outline]
  split
  · cases value with
    | string span name => rfl
    | _ => rfl
  · cases integerValue p file value <;> rfl
  · cases value with
    | array span elements =>
      rw [Expr.outline, Expr.outlines_eq_map]
      dsimp only
      rw [List.foldl_map]
      exact List.foldl_hom _ fun h e => addTable_outline p file f h e
    | _ => rfl
  · cases value <;> rfl
  · cases value <;> rfl
  · rfl

theorem addOptions_outline (h : HelperDeclaration) (members : List (String × Expr)) :
    (members.map fun m => (m.1, m.2.outline)).foldl (addOption p.outline file f.outline) h.outline =
      (members.foldl (addOption p file f) h).outline := by
  rw [List.foldl_map]
  exact List.foldl_hom _ fun h member => addOption_outline p file f h member

theorem ofDecorator_outline (owner : ClassId) (d : Decorator) :
    ofDecorator p.outline file f.outline owner d.outline =
      (ofDecorator p file f owner d).outline := by
  unfold ofDecorator
  rw [optionMembers_outline]
  cases optionMembers f .helper d with
  | ok members =>
    dsimp only
    rw [← addOptions_outline]
    rfl
  | error issue => rw [← addIssue_outline]; rfl

end HelperDeclaration

/-! ### Upgrade routines -/

namespace RoutineDeclaration

theorem addIssue_outline (r : RoutineDeclaration) (issue : ArgumentIssue) :
    r.outline.addIssue issue.outline = (r.addIssue issue).outline := by
  unfold addIssue outline
  rw [List.map_append]
  rfl

theorem addOption_outline (r : RoutineDeclaration) (member : String × Expr) :
    r.outline.addOption p.outline file f.outline (member.1, member.2.outline) =
      (r.addOption p file f member).outline := by
  obtain ⟨key, value⟩ := member
  unfold addOption
  simp only [integerValue_outline, issueAt_outline, addIssue_outline, locatedAt_outline]
  split
  · cases integerValue p file value with
    | some version =>
      dsimp only
      split <;> rfl
    | none => rfl
  · rfl

theorem addOptions_outline (r : RoutineDeclaration) (members : List (String × Expr)) :
    (members.map fun m => (m.1, m.2.outline)).foldl (addOption p.outline file f.outline) r.outline =
      (members.foldl (addOption p file f) r).outline := by
  rw [List.foldl_map]
  exact List.foldl_hom _ fun r member => addOption_outline p file f r member

theorem parameterOf_outline (parameter : Source.Parameter) :
    parameterOf p.outline file f.outline parameter.outline =
      (parameterOf p file f parameter).outline := by
  unfold parameterOf
  simp only [p.identityOf_outline]
  rfl

theorem ofDecorator_outline (owner : ClassId) (m : Method) (d : Decorator) :
    ofDecorator p.outline file f.outline owner m.outline d.outline =
      (ofDecorator p file f owner m d).outline := by
  have hparameters : m.outline.parameters.map (parameterOf p.outline file f.outline) =
      (m.parameters.map (parameterOf p file f)).map (·.outline) := by
    rw [Method.outline, List.map_map, List.map_map]
    exact List.map_congr_left fun parameter _ => parameterOf_outline p file f parameter
  unfold ofDecorator
  rw [optionMembers_outline, hparameters]
  cases optionMembers f .upgrade d with
  | ok members =>
    dsimp only
    rw [← addOptions_outline]
    rfl
  | error issue => rw [← addIssue_outline]; rfl

end RoutineDeclaration

/-! ## Programs -/

theorem declarationsOf_outline (owner : ClassId) (c : SourceClass) :
    p.outline.declarationsOf owner file f.outline c.outline =
      (p.declarationsOf owner file f c).map (·.outline) := by
  have htest (marker : Marker) :
      p.outline.isMarked file marker ∘ Decorator.outline = p.isMarked file marker :=
    funext (isMarked_outline p file marker)
  have hroutines (m : Method) :
      (m.outline.decorators.filter (p.outline.isMarked file .upgrade)).map
          (fun d => Declaration.routine (.ofDecorator p.outline file f.outline owner m.outline d)) =
        ((m.decorators.filter (p.isMarked file .upgrade)).map fun d =>
          Declaration.routine (.ofDecorator p file f owner m d)).map (·.outline) := by
    rw [show m.outline.decorators = m.decorators.map (·.outline) from rfl, List.filter_map, htest,
      List.map_map, List.map_map]
    refine List.map_congr_left fun d _ => ?_
    exact congrArg Declaration.routine (RoutineDeclaration.ofDecorator_outline p file f owner m d)
  unfold Program.declarationsOf
  rw [List.map_append, List.map_append, List.map_flatMap]
  congr 1
  · congr 1
    · rw [SourceClass.outline, List.any_map, htest]
      split <;> rfl
    · rw [SourceClass.outline, List.find?_map, htest]
      cases c.decorators.find? (p.isMarked file .helper) with
      | none => rfl
      | some d =>
        exact congrArg (fun h => [Declaration.helper h])
          (HelperDeclaration.ofDecorator_outline p file f owner d)
  · rw [show c.outline.methods = c.methods.map (·.outline) from rfl, List.flatMap_map]
    simp only [hroutines]

end

namespace Program

theorem sourceClasses_outline (files : List SourceFile) :
    sourceClasses (files.map (·.outline)) =
      (sourceClasses files).map fun x => (x.1, x.2.1.outline, x.2.2.outline) := by
  unfold sourceClasses
  rw [List.zipIdx_map, List.flatMap_map, List.map_flatMap]
  refine congrArg (fun classes => files.zipIdx.flatMap classes) (funext fun x => ?_)
  show (x.1.classes.map (·.outline)).map (fun c => (x.2, x.1.outline, c)) =
    (x.1.classes.map fun c => (x.2, x.1, c)).map _
  rw [List.map_map, List.map_map]
  rfl

theorem outline_ofFiles (dir : Path) (files : List SourceFile) :
    (ofFiles dir files).outline = ofFiles dir (files.map (·.outline)) := by
  have hscanned : (files.map ScannedFile.ofSource).map (·.outline) =
      (files.map (·.outline)).map ScannedFile.ofSource := by
    rw [List.map_map, List.map_map]
    exact List.map_congr_left fun f _ => (ofSource_outline f).symm
  exact congrArg (fun scanned => Program.mk dir scanned [] []) hscanned

theorem outline_ofClasses (dir : Path) (files : List SourceFile) :
    (ofClasses dir files).outline = ofClasses dir (files.map (·.outline)) := by
  have hscanned : ((sourceClasses files).map fun x =>
        ScannedClass.ofSource (ofFiles dir files) x.1 x.2.1 x.2.2).map (·.outline) =
      (sourceClasses (files.map (·.outline))).map fun x =>
        ScannedClass.ofSource (ofFiles dir files).outline x.1 x.2.1 x.2.2 := by
    rw [sourceClasses_outline, List.map_map, List.map_map]
    exact List.map_congr_left fun x _ => (class_outline _ x.1 x.2.1 x.2.2).symm
  unfold ofClasses
  rw [← outline_ofFiles]
  exact congrArg (fun classes => Program.mk dir (ofFiles dir files).outline.files classes [])
    hscanned

/-- The outline of a program is the program of the outlines of its files. -/
theorem outline_ofSources (dir : Path) (files : List SourceFile) :
    (ofSources dir files).outline = ofSources dir (files.map (·.outline)) := by
  have hdeclared : ((sourceClasses files).zipIdx.flatMap fun x =>
        (ofClasses dir files).declarationsOf x.2 x.1.1 x.1.2.1 x.1.2.2).map (·.outline) =
      (sourceClasses (files.map (·.outline))).zipIdx.flatMap fun x =>
        (ofClasses dir files).outline.declarationsOf x.2 x.1.1 x.1.2.1 x.1.2.2 := by
    rw [sourceClasses_outline, List.zipIdx_map, List.flatMap_map, List.map_flatMap]
    refine congrArg (fun declared => (sourceClasses files).zipIdx.flatMap declared) ?_
    exact funext fun x => (declarationsOf_outline _ x.1.1 x.1.2.1 x.2 x.1.2.2).symm
  unfold ofSources
  rw [← outline_ofClasses]
  exact congrArg (fun declared =>
    Program.mk dir (ofClasses dir files).outline.files (ofClasses dir files).outline.classes
      declared) hdeclared

end Program

/-! ## Tables -/

namespace Schema

/-- An id type without its wording. -/
def IdType.outline : IdType → IdType
  | wrapped primitive wrapper => wrapped primitive wrapper
  | declared _ imports => declared "" imports

/-- A found id type without its wording. -/
def Found.outline (found : Found) : Found := { found with idType := found.idType.outline }

/-- A table without the wording of its id type. -/
def Table.outline (t : Table) : Table := { t with idType := t.idType.outline }

/-- The primitive and its object type, when there is one: such a primitive is a keyword. -/
theorem IdType.wrapping_keywordOnly (name : String) :
    (wrapperOf (keywordOnly name)).map (keywordOnly name, ·) =
      (wrapperOf name).map (name, ·) := by
  unfold keywordOnly
  split
  · rfl
  · rename_i hkeyword
    have hnumber : name ≠ "number" := by
      rintro rfl
      exact hkeyword (by decide)
    have hbigint : name ≠ "bigint" := by
      rintro rfl
      exact hkeyword (by decide)
    rw [wrapperOf, wrapperOf, if_neg hnumber, if_neg hbigint]
    rfl

variable (p : Program)

/-- The wording of a type does not decide whether it is wrapped, nor what it needs imported. -/
theorem ofField_outline (file : FileId) (type : Option DeclaredType) :
    (IdType.ofField (p.outline.fileAt file) (type.map (·.outline))).outline =
      (IdType.ofField (p.fileAt file) type).outline := by
  cases type with
  | none => rfl
  | some t =>
    have hrequests : (p.outline.fileAt file).importRequest = (p.fileAt file).importRequest :=
      funext (p.importRequest_outline file)
    have hwrapping : (t.primitive.map keywordOnly).bind
        (fun name => (IdType.wrapperOf name).map (name, ·)) =
        t.primitive.bind fun name => (IdType.wrapperOf name).map (name, ·) := by
      cases t.primitive with
      | none => rfl
      | some name => exact IdType.wrapping_keywordOnly name
    unfold IdType.ofField IdType.requestsOf
    rw [hrequests]
    dsimp only [Option.map_some, DeclaredType.outline]
    rw [hwrapping]
    cases t.primitive.bind fun name => (IdType.wrapperOf name).map (name, ·) <;> rfl

theorem ownIdType_outline (id : ClassId) :
    (ownIdType p.outline id).map (·.outline) = (ownIdType p id).map (·.outline) := by
  rw [ownIdType_def, ownIdType_def, p.classAt_outline]
  cases hfield : (p.classAt id).idField with
  | none => simp [ScannedClass.outline, hfield]
  | some field =>
    have htype := ofField_outline p (p.classAt id).file field.type
    have houtline : (p.classAt id).outline.idField = some field.outline := by
      rw [ScannedClass.outline, hfield]
      rfl
    rw [houtline]
    exact congrArg (fun type => some (Found.mk id type)) htype

theorem idTypeOf_outline (id : ClassId) :
    (idTypeOf p.outline id).map (·.outline) = (idTypeOf p id).map (·.outline) := by
  unfold idTypeOf
  rw [p.ancestry_outline, List.map_findSome?, List.map_findSome?]
  exact congrArg (fun own => (p.ancestry id).findSome? own) (funext (ownIdType_outline p))

theorem table?_outline (id : ClassId) :
    (Registry.table? p.outline id).map (·.outline) = (Registry.table? p id).map (·.outline) := by
  have htable : ∀ q : Program, (Registry.table? q id).map (·.outline) =
      ((idTypeOf q id).map (·.outline)).map (Registry.tableOf q id) := by
    intro q
    rw [Registry.table?, Option.map_map, Option.map_map]
    rfl
  have htableOf : Registry.tableOf p.outline id = Registry.tableOf p id := by
    funext found
    rw [Registry.tableOf_def, Registry.tableOf_def, p.homeOf_outline, p.classAt_outline]
    rfl
  rw [htable, htable, idTypeOf_outline, htableOf]

/-- The tables of a program are those of its outline, up to the wording of their id types. -/
theorem Registry.outlines_ofProgram :
    (ofProgram p.outline).tables.map (·.outline) = (ofProgram p).tables.map (·.outline) := by
  have htables : p.outline.tables = p.tables := by
    unfold Program.tables Program.outline
    rw [List.filterMap_map]
    congr
    funext d
    cases d <;> rfl
  rw [tables_ofProgram, tables_ofProgram, List.map_filterMap, List.map_filterMap, tableIds,
    htables]
  exact congrArg (fun table => (tableIds p).filterMap table) (funext (table?_outline p))

end Schema

end DaoGen
