import DaoGen.ModuleName
import DaoGen.Place
import DaoGen.Upgrade.Step
set_option autoImplicit false

/-!
# Programs

A program is what a set of source files says: every scanned class, the names that
each file imports or declares, and the declarations made on classes and methods
(tables, helpers, upgrade routines) with their arguments evaluated.  Files and
classes are known by their index.
-/

namespace DaoGen

/-- What a name stands for: an exported name of a module. -/
structure Identity where
  home : ModuleName
  name : String
  deriving Repr, Inhabited

instance : BEq Identity := ⟨fun a b => a.home == b.home && a.name == b.name⟩

/-- A binding that another module needs in order to use a name the way it was
written. -/
structure ImportRequest where
  home : ModuleName
  /-- the exported name, or `*` for the module as a whole -/
  exported : String
  localName : String
  deriving Repr, Inhabited

instance : BEq ImportRequest :=
  ⟨fun a b => a.home == b.home && a.exported == b.exported && a.localName == b.localName⟩

/-- Requests are ordered by module, exported name and local name. -/
instance : Ord ImportRequest where
  compare a b :=
    (compare a.home b.home).then
      ((compare a.exported b.exported).then (compare a.localName b.localName))

/-- What an import binds a local name to. -/
inductive Binding where
  /-- an exported name of a module -/
  | named (home : ModuleName) (name : String)
  /-- a module as a whole -/
  | whole (home : ModuleName)
  deriving Repr, Inhabited

/-- The import bindings of a file, the latest first. -/
structure ImportMap where
  entries : List (String × Binding) := []
  deriving Repr, Inhabited

namespace ImportMap

/-- One more binding; it hides an earlier one of the same name. -/
def insert (m : ImportMap) (localName : String) (b : Binding) : ImportMap :=
  ⟨(localName, b) :: m.entries⟩

/-- The binding of a name. -/
def get? (m : ImportMap) (localName : String) : Option Binding := m.entries.lookup localName

theorem get?_insert (m : ImportMap) (n k : String) (b : Binding) :
    (m.insert n b).get? k = if k = n then some b else m.get? k := by
  by_cases h : k = n
  · simp [insert, get?, h]
  · have : (k == n) = false := by simpa using h
    simp [insert, get?, List.lookup_cons, h, this]

end ImportMap

/-- A scanned source file. -/
structure ScannedFile where
  path : Path
  /-- the path as a module: without script extension -/
  stem : Path
  text : String
  imports : ImportMap
  /-- the classes, type aliases, interfaces and enums of the file -/
  declared : List String
  deriving Repr, Inhabited

/-- The index of a file. -/
abbrev FileId := Nat

/-- The index of a class. -/
abbrev ClassId := Nat

/-- A type as written on a field. -/
structure DeclaredType where
  text : String
  /-- the keyword or other text of a type that is no combination of named types -/
  primitive : Option String
  /-- the named types mentioned, as written -/
  references : List String
  deriving DecidableEq, Repr, Inhabited

/-- A field that identifies the rows of a table. -/
structure IdField where
  name : String
  type : Option DeclaredType
  place : Place
  deriving Repr, Inhabited

/-- What the constructors of a class demand. -/
inductive ConstructorShape where
  /-- none is declared, so the parent's applies -/
  | inherited
  /-- one can be called without arguments -/
  | zeroArgs
  | requiresArgs
  deriving DecidableEq, Repr, Inhabited

/-- A scanned class. -/
structure ScannedClass where
  name : String
  file : FileId
  /-- the class it extends, as written -/
  parent : Option String
  isAbstract : Bool
  exported : Bool
  /-- the first identifying field the class itself declares -/
  idField : Option IdField
  shape : ConstructorShape
  place : Place
  deriving Repr, Inhabited

/-- What a written class name was found to stand for. -/
inductive Resolution where
  | found (id : ClassId)
  | notFound
  | ambiguous (count : Nat)
  deriving DecidableEq, Repr, Inhabited

/-- The resolution that a list of candidates makes. -/
def Resolution.ofMatches : List ClassId → Resolution
  | [] => .notFound
  | [id] => .found id
  | ids => .ambiguous ids.length

/-- An entry of a helper's list of tables. -/
structure TableEntry where
  written : String
  resolution : Resolution
  place : Place
  deriving Repr, Inhabited

/-- A decorator argument that has no usable value. -/
structure ArgumentIssue where
  decorator : String
  argument : String
  expected : String
  place : Place
  deriving Repr, Inhabited

/-- A class declared to be a helper of a database. -/
structure HelperDeclaration where
  owner : ClassId
  name : Option (Located String)
  version : Option (Located Int)
  tables : List TableEntry
  /-- whether an upgrade drops all tables -/
  drops : Bool
  /-- whether a config writer is wanted too -/
  writesConfig : Bool
  issues : List ArgumentIssue
  place : Place
  deriving Repr

/-- A parameter of an upgrade routine. -/
structure RoutineParameter where
  name : String
  type : Option String
  identity : Option Identity
  place : Place
  deriving Repr, Inhabited

/-- A method declared to be an upgrade routine. -/
structure RoutineDeclaration where
  owner : ClassId
  method : String
  /-- what keeps the method from being a public instance method without a result,
  worded to follow "is" -/
  rejected : Option String
  parameters : List RoutineParameter
  fromVersion : Option (Located Int)
  toVersion : Option (Located Int)
  issues : List ArgumentIssue
  place : Place
  decoratorPlace : Place
  deriving Repr

/-- A declaration on a class or a method. -/
inductive Declaration where
  | table (owner : ClassId)
  | helper (declaration : HelperDeclaration)
  | routine (declaration : RoutineDeclaration)
  deriving Repr

/-- Everything the scanned files say. -/
structure Program where
  sourceDir : Path
  files : List ScannedFile
  classes : List ScannedClass
  declarations : List Declaration
  deriving Repr

namespace Declaration

/-- The helper a declaration makes. -/
def helper? : Declaration → Option HelperDeclaration
  | helper h => some h
  | _ => none

/-- The routine a declaration makes. -/
def routine? : Declaration → Option RoutineDeclaration
  | routine r => some r
  | _ => none

/-- The table class a declaration makes. -/
def table? : Declaration → Option ClassId
  | table id => some id
  | _ => none

end Declaration

/-- A way to look up the classes and the files of a program by their indices.  What a look-up
gives, and whether it may fail, is up to the monad: each function that looks things up is written
once over this. -/
structure Lookup (m : Type → Type) where
  /-- how many classes there are -/
  count : Nat
  classAt : ClassId → m ScannedClass
  fileAt : FileId → m ScannedFile

/-- The module a class is exported from. -/
def Lookup.homeOf {m : Type → Type} [Monad m] (look : Lookup m) (id : ClassId) :
    m ModuleName := do
  let c ← look.classAt id
  let f ← look.fileAt c.file
  return .file f.stem

namespace Program

/-- The class of an index. -/
def classAt (p : Program) (id : ClassId) : ScannedClass := p.classes[id]?.getD default

/-- The file of an index. -/
def fileAt (p : Program) (id : FileId) : ScannedFile := p.files[id]?.getD default

/-- The look-ups in a program; an index of nothing stands for an empty class or file. -/
def lookup (p : Program) : Lookup Id := ⟨p.classes.length, p.classAt, p.fileAt⟩

/-- The file a class was found in. -/
def fileOf (p : Program) (id : ClassId) : ScannedFile := p.fileAt (p.classAt id).file

/-- The module a class is exported from. -/
def homeOf (p : Program) (id : ClassId) : ModuleName := p.lookup.homeOf id

theorem homeOf_def (p : Program) (id : ClassId) : p.homeOf id = .file (p.fileOf id).stem := rfl

/-- The helper declarations in order. -/
def helpers (p : Program) : List HelperDeclaration := p.declarations.filterMap (·.helper?)

/-- The upgrade routines in order. -/
def routines (p : Program) : List RoutineDeclaration := p.declarations.filterMap (·.routine?)

/-- The table classes in order. -/
def tables (p : Program) : List ClassId := p.declarations.filterMap (·.table?)

end Program

end DaoGen
