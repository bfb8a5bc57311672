import DaoGen.ImportBlock
import DaoGen.Program.Basic
import DaoGen.Text.Cut
import DaoGen.Traversal
set_option autoImplicit false

/-!
# Names in a program

A name is written plain or behind the name of a module that the file imports as a
whole.  What it stands for follows from the imports of its file first and from the
file's own declarations second; any other name is a global and stands for nothing
that a module exports.

What takes the classes of other files is written over a `Lookup`, and read off a program with its
own look-ups.
-/

namespace DaoGen

open DaoGen.Text (cutFirst cutLast afterLast)

namespace ScannedFile

variable (f : ScannedFile) (written : String)

/-- What a name written in a file stands for. -/
def identityOf : Option Identity :=
  match cutLast '.' written.toList with
  | some (qualifier, name) =>
    match f.imports.get? (String.ofList qualifier) with
    | some (.whole home) => some ⟨home, String.ofList name⟩
    | _ => none
  | none =>
    match f.imports.get? written with
    | some (.named home name) => some ⟨home, name⟩
    | some (.whole _) => none
    | none => if f.declared.contains written then some ⟨.file f.stem, written⟩ else none

/-- What another module has to import so that a name written in a file means the
same there. -/
def importRequest : Option ImportRequest :=
  match cutFirst '.' written.toList with
  | some (qualifier, _) =>
    match f.imports.get? (String.ofList qualifier) with
    | some (.whole home) => some ⟨home, wholeModule, String.ofList qualifier⟩
    | _ => none
  | none => (f.identityOf written).map fun i => ⟨i.home, i.name, written⟩

/-- Whether a file is what a module path names: the file itself or the index file
of the directory of that name. -/
def isModule (path : Path) : Bool := f.stem == path || f.stem == path.join ⟨"index"⟩

end ScannedFile

/-! ## Over look-ups -/

namespace Lookup

variable {m : Type → Type} [Monad m] (look : Lookup m)

/-- What a name written in a file stands for. -/
def identityOf (file : FileId) (written : String) : m (Option Identity) := do
  return (← look.fileAt file).identityOf written

/-- The indices of the classes that pass a test. -/
def classesWhere (test : ScannedClass → m Bool) : m (List ClassId) :=
  (List.range look.count).filterM fun id => do test (← look.classAt id)

/-- The class that a name written in a file stands for.  A name from a scanned
module must be a class found there; any other name is searched among all classes
by its last part. -/
def resolveClass (file : FileId) (written : String) : m Resolution := do
  match ← look.identityOf file written with
  | some ⟨.file path, name⟩ =>
    return .ofMatches (← look.classesWhere fun c => do
      let f ← look.fileAt c.file
      return c.name = name && f.isModule path)
  | _ =>
    let simple := String.ofList (afterLast '.' written.toList)
    return .ofMatches (← look.classesWhere fun c => return c.name = simple)

/-- The scanned class that a class extends; never the class itself. -/
def parentOf (id : ClassId) : m (Option ClassId) := do
  let c ← look.classAt id
  match c.parent with
  | none => return none
  | some written =>
    match ← look.resolveClass c.file written with
    | .found parent => return if parent = id then none else some parent
    | _ => return none

/-- Whether a class can be made without arguments, looking at no more than the
given number of classes: the nearest class with constructors of its own decides. -/
def canMakeWithin : Nat → ClassId → m Bool
  | 0, _ => return false
  | bound + 1, id => do
    match (← look.classAt id).shape with
    | .zeroArgs => return true
    | .requiresArgs => return false
    | .inherited =>
      match ← look.parentOf id with
      | none => return true
      | some parent => canMakeWithin bound parent

/-- Whether a class can be made without arguments.  A chain of parents longer than
the number of classes runs in a circle and has no constructor. -/
def canMake (id : ClassId) : m Bool := look.canMakeWithin look.count id

end Lookup

/-! ## In a program -/

namespace Program

variable (p : Program)

/-- What a name written in a file stands for. -/
def identityOf (file : FileId) (written : String) : Option Identity :=
  p.lookup.identityOf file written

theorem identityOf_def (file : FileId) (written : String) :
    p.identityOf file written = (p.fileAt file).identityOf written := rfl

/-- What another module has to import so that a name written in a file means the
same there. -/
def importRequest (file : FileId) (written : String) : Option ImportRequest :=
  (p.fileAt file).importRequest written

/-- The exported name that a decorator stands for. -/
def decoratorName (file : FileId) (qualifier : Option String) (name : String) : String :=
  match qualifier with
  | some _ => name
  | none =>
    match (p.fileAt file).imports.get? name with
    | some (.named _ exported) => exported
    | _ => name

/-- The indices of the classes that pass a test. -/
def classesWhere (test : ScannedClass → Bool) : List ClassId := p.lookup.classesWhere test

theorem classesWhere_def (test : ScannedClass → Bool) :
    p.classesWhere test = (List.range p.classes.length).filter fun id => test (p.classAt id) :=
  filterM_eq_pure fun _ _ => rfl

/-- Whether a file is what a module path names. -/
def isModule (file : FileId) (path : Path) : Bool := (p.fileAt file).isModule path

/-- The class that a name written in a file stands for. -/
def resolveClass (file : FileId) (written : String) : Resolution :=
  p.lookup.resolveClass file written

theorem resolveClass_def (file : FileId) (written : String) :
    p.resolveClass file written =
      match p.identityOf file written with
      | some ⟨.file path, name⟩ =>
        .ofMatches (p.classesWhere fun c => c.name = name && p.isModule c.file path)
      | _ =>
        .ofMatches (p.classesWhere fun c =>
          c.name = String.ofList (afterLast '.' written.toList)) :=
  rfl

/-- The scanned class that a class extends; never the class itself. -/
def parentOf (id : ClassId) : Option ClassId := p.lookup.parentOf id

theorem parentOf_def (id : ClassId) :
    p.parentOf id =
      match (p.classAt id).parent with
      | none => none
      | some written =>
        match p.resolveClass (p.classAt id).file written with
        | .found parent => if parent = id then none else some parent
        | _ => none :=
  rfl

/-- Whether a class can be made without arguments, looking at no more than the
given number of classes. -/
def canMakeWithin (bound : Nat) (id : ClassId) : Bool := p.lookup.canMakeWithin bound id

theorem canMakeWithin_succ (bound : Nat) (id : ClassId) :
    p.canMakeWithin (bound + 1) id =
      match (p.classAt id).shape with
      | .zeroArgs => true
      | .requiresArgs => false
      | .inherited =>
        match p.parentOf id with
        | none => true
        | some parent => p.canMakeWithin bound parent :=
  rfl

/-- Whether a class can be made without arguments. -/
def canMake (id : ClassId) : Bool := p.lookup.canMake id

theorem canMake_def (id : ClassId) : p.canMake id = p.canMakeWithin p.classes.length id := rfl

end Program

end DaoGen
