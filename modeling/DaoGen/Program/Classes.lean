import DaoGen.Program.Resolution
import DaoGen.Source.Basic
set_option autoImplicit false

/-!
# Files and classes of a program

What a source file says becomes a scanned file, whose imports name modules instead of
specifiers, and a scanned class for each of its classes.
-/

namespace DaoGen

open DaoGen.Source (SourceFile SourceClass Decorator Method)

/-! ## Files -/

/-- The import bindings of a file in a directory. -/
def ImportMap.ofImports (dir : Path) (imports : List Source.Import) : ImportMap :=
  imports.foldl (fun m i =>
    let home := ModuleName.ofSpecifier dir i.specifier
    i.names.foldl (fun m n =>
      m.insert n.localName
        (if n.name = wholeModule then .whole home else .named home n.name)) m) {}

/-- A source file as part of a program, under its path in normal form. -/
def ScannedFile.ofSource (f : SourceFile) : ScannedFile :=
  let path := f.path.normalize
  { path
    stem := path.moduleStem
    text := f.text
    imports := .ofImports path.directory f.imports
    declared := f.classes.map (·.name) ++ f.typeNames }

/-- A span of a source file as a place. -/
def placeIn (f : SourceFile) (span : Text.Span) : Place := ⟨f.path, f.text, span⟩

/-! ## Classes -/

/-- Names of the decorators that declarations are made with. -/
inductive Marker where
  | table | field | helper | upgrade
  deriving DecidableEq, Repr

/-- The exported name of a decorator. -/
def Marker.name : Marker → String
  | table => "DatabaseTable"
  | field => "DatabaseField"
  | helper => "Helper"
  | upgrade => "OnUpgrade"

/-- Whether a decorator written in a file is the one of a marker. -/
def Program.isMarked (p : Program) (file : FileId) (marker : Marker) (d : Decorator) : Bool :=
  p.decoratorName file d.qualifier d.name = marker.name

/-- Options that make a field the identifier of its table. -/
def identifierOptions : List String := ["id", "generatedId"]

/-- Whether the options of a field decorator make the field an identifier. -/
def marksIdentifier (d : Decorator) : Bool :=
  match d.arguments.head? with
  | none => false
  | some options =>
    identifierOptions.any fun key =>
      match options.property? key with
      | some (.boolean _ value) => value
      | _ => false

/-- A type as a field declares it. -/
def DeclaredType.ofWritten (a : Source.Annotation) : DeclaredType :=
  { text := a.text
    primitive := match a.shape with
      | .primitive name => some name
      | _ => none
    references := a.shape.references }

/-- Whether a field is the identifier of a table in a file. -/
def isIdentifier (p : Program) (file : FileId) (field : Source.Field) : Bool :=
  !field.isStatic &&
    field.decorators.any fun d => p.isMarked file .field d && marksIdentifier d

/-- The first identifying field of a class. -/
def idFieldOf (p : Program) (file : FileId) (f : SourceFile) (c : SourceClass) : Option IdField :=
  (c.fields.find? (isIdentifier p file)).map fun field =>
    ⟨field.name, field.type.map .ofWritten, placeIn f field.span⟩

/-- The constructors that can be called: the signatures without body if there are any,
or else the one with a body. -/
def callableConstructors (c : SourceClass) : List Method :=
  let overloads := c.constructors.filter (!·.hasBody)
  if overloads.isEmpty then c.constructors else overloads

/-- What the constructors of a class demand. -/
def ConstructorShape.ofClass (c : SourceClass) : ConstructorShape :=
  if c.constructors.isEmpty then .inherited
  else if (callableConstructors c).any fun m => m.parameters.all (·.canBeOmitted) then .zeroArgs
  else .requiresArgs

/-- A class as part of a program. -/
def ScannedClass.ofSource (p : Program) (file : FileId) (f : SourceFile) (c : SourceClass) :
    ScannedClass :=
  { name := c.name
    file
    parent := c.parent
    isAbstract := c.isAbstract
    exported := c.exported
    idField := idFieldOf p file f c
    shape := .ofClass c
    place := placeIn f c.span }

end DaoGen
