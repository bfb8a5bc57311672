import DaoGen.Path
set_option autoImplicit false

/-!
# Module names

A module is a package, known by its bare specifier, or a scanned file, known by
its path without extension.  A generated file names a module by a specifier: the
package's own, or the path that leads from the output directory to the file.
-/

namespace DaoGen

/-- What a module is known by. -/
inductive ModuleName where
  /-- a bare specifier -/
  | package (specifier : String)
  /-- a scanned file by its path without extension -/
  | file (path : Path)
  deriving Repr, Inhabited

namespace ModuleName

instance : BEq ModuleName where
  beq
    | package a, package b => a == b
    | file a, file b => a == b
    | _, _ => false

/-- Packages come before files; packages are ordered by specifier, files by path. -/
instance : Ord ModuleName where
  compare
    | package a, package b => compare a b
    | package _, file _ => .lt
    | file _, package _ => .gt
    | file a, file b => compare a b

/-- Backslashes separate too, and are written as slashes. -/
def slashed (c : Char) : Char := if c = '\\' then '/' else c

/-- Whether a specifier says by itself that it leads to a file. -/
def leadsToFile : List Char → Bool
  | '.' :: '/' :: _ => true
  | '.' :: '.' :: '/' :: _ => true
  | _ => false

/-- A path as a specifier: it starts with `./` unless it starts so already or
with `../`. -/
def relativeSpecifier (path : Path) : String :=
  let text := path.text.toList.map slashed
  if leadsToFile text then String.ofList text else String.ofList ('.' :: '/' :: text)

/-- The specifier by which a file in `outDir` names a module. -/
def specifier (outDir : Path) : ModuleName → String
  | package name => name
  | file path => relativeSpecifier ((path.difference? outDir).getD path)

/-- Whether a specifier is a path rather than the name of a package. -/
def isRelative (specifier : List Char) : Bool :=
  leadsToFile specifier || specifier = ['.'] || specifier = ['.', '.']

/-- The module that a specifier written in a file of `dir` names: a path from there,
without script extension and in normal form, or a package. -/
def ofSpecifier (dir : Path) (written : String) : ModuleName :=
  if isRelative written.toList then file (dir.join ⟨written⟩).moduleStem.normalize
  else package written

end ModuleName

end DaoGen
