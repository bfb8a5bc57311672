import DaoGen.Emit.Generation
import DaoGen.Failure
import DaoGen.Helper.Validation
import DaoGen.Language
import DaoGen.Program.OfSources
import DaoGen.Settings.Reading
import DaoGen.Source.File
import DaoGen.Workspace.Tree
set_option autoImplicit false

/-!
# Passes over a workspace

A workspace is a file tree with a working directory.  Checking reads the sources and
validates what they declare, planning shows the upgrades of the helpers, generating
writes their modules.  The helpers that are accepted are written even when others
fail; the pass then ends with all diagnostics.

How a text is read as a source file is left to the reader that a pass is given.
-/

namespace DaoGen

/-- A file tree and the directory that relative paths start from. -/
structure Workspace where
  tree : Tree
  /-- an absolute path -/
  cwd : Path
  deriving Repr, Inhabited

/-- What a pass gives, and the events on the way. -/
structure Outcome (α : Type) where
  result : Except Failure α
  events : List Event := []

namespace Outcome

/-- An outcome of a failure without events. -/
def failed {α : Type} (f : Failure) : Outcome α := ⟨.error f, []⟩

end Outcome

/-- What a pass that succeeds counts. -/
structure Summary where
  helpers : Nat
  /-- the tables with an identifier -/
  tables : Nat
  written : List Path := []
  /-- the number of files that could not be written -/
  failures : Nat := 0
  deriving Repr, Inhabited

/-- The upgrades of one helper. -/
structure HelperPlan where
  helper : String
  owner : String
  version : Upgrade.Version
  migration : Upgrade.Migration
  /-- a run from a version that was asked for -/
  run? : Option Upgrade.Run
  deriving Repr, Inhabited

namespace Workspace

/-- The absolute path in normal form. -/
def absolute (w : Workspace) (p : Path) : Path := (w.cwd.join p).normalize

/-! ## Settings -/

/-- Whether a path leads anywhere. -/
def contains (w : Workspace) (p : Path) : Bool :=
  !p.text.isEmpty && w.tree.contains (w.cwd.join p)

/-- The settings in a file; the default ones when there is no such file. -/
def loadSettings (w : Workspace) (p : Path) : Except Failure Settings :=
  if w.contains p then
    match w.tree.readText (w.cwd.join p) with
    | .ok text => Settings.ofText p text
    | .error o => .error (.unreadable p o.message)
  else .ok {}

/-! ## Sources -/

/-- The end of the names of files that declare types only. -/
def typesOnlyEnd : List Char := ".d.ts".toList

/-- Whether a path names a source file of a language. -/
def isSource (language : Language) (p : Path) : Bool :=
  match p.extension with
  | none => false
  | some ext =>
    language.extensions.contains (String.ofList ext) && !typesOnlyEnd.isSuffixOf p.text.toList

/-- The source files below a directory, in the order of their names. -/
def sources (w : Workspace) (language : Language) (directory : Path)
    (read : Source.Reader := Source.SourceFile.read) :
    Except Failure (List Source.SourceFile) :=
  let files := (w.tree.filesBelow directory.location).filterMap fun (names, content) =>
    let path := directory.below names
    if isSource language path then some (path, content) else none
  files.mapM fun (path, content) =>
    match Tree.readEntry (.file content) with
    | .error o => .error (.unreadable path o.message)
    | .ok text => read path text

/-! ## Analysis -/

/-- What the sources declare. -/
structure Analysis where
  tables : Nat
  validation : Validation

/-- Reads the sources and validates what they declare. -/
def analyze (w : Workspace) (s : Settings)
    (read : Source.Reader := Source.SourceFile.read) : Except Failure Analysis := do
  let directory := w.absolute s.sourceDir
  match Language.ofName? s.language with
  | none => throw (.unsupportedLanguage s.language)
  | some language =>
    if w.tree.isDirectory directory then
      let p := Program.ofSources directory (← w.sources language directory read)
      let registry := Schema.Registry.ofProgram p
      return ⟨registry.tables.length, Validation.ofProgram p registry s.runtime⟩
    else throw (.unreadable directory "source directory does not exist")

/-- Gives a value unless diagnostics were collected. -/
def unlessRejected {α : Type} (v : Validation) (value : Except Failure α) : Except Failure α :=
  if v.diagnostics.isEmpty then value else .error (.rejected v.diagnostics)

/-! ## Checking -/

/-- Validates without writing anything. -/
def check (w : Workspace) (s : Settings)
    (read : Source.Reader := Source.SourceFile.read) : Outcome Summary :=
  match w.analyze s read with
  | .error f => .failed f
  | .ok a =>
    ⟨unlessRejected a.validation (.ok ⟨a.validation.helpers.length, a.tables, [], 0⟩),
      a.validation.events⟩

/-! ## Planning -/

/-- Whether a helper goes by a name: its own, the sanitized one or that of its class. -/
def goesBy (h : Helper) (name : String) : Bool :=
  h.name = name || h.sanitized = name || h.ownerName = name

/-- The upgrades of a helper, with a run from a version if one is given. -/
def planOf (start : Option Upgrade.Version) (h : Helper) : HelperPlan :=
  { helper := h.name, owner := h.ownerName, version := h.version, migration := h.migration
    run? := h.migration.plan?.bind fun plan => start.map plan.run }

/-- The plans of all helpers, or of the one that goes by a name. -/
def selectPlans (helpers : List Helper) (name : Option String)
    (start : Option Upgrade.Version) : Except Failure (List HelperPlan) :=
  match name with
  | none => .ok (helpers.map (planOf start))
  | some name =>
    match helpers.filter (goesBy · name) with
    | [] => .error (.unknownHelper name)
    | found => .ok (found.map (planOf start))

/-- Shows the upgrades of all helpers, or of the one that goes by a name. -/
def plan (w : Workspace) (s : Settings) (name : Option String)
    (start : Option Upgrade.Version) (read : Source.Reader := Source.SourceFile.read) :
    Outcome (List HelperPlan) :=
  match w.analyze s read with
  | .error f => .failed f
  | .ok a =>
    ⟨unlessRejected a.validation (selectPlans a.validation.helpers name start),
      a.validation.events⟩

/-! ## Generating -/

/-- What writing files has done so far. -/
structure Writing where
  tree : Tree
  written : List Path := []
  failures : Nat := 0
  events : List Event := []
  /-- the files it set out to write -/
  tried : List Emit.GeneratedFile := []

/-- Writes one more file; one that cannot be written is counted. -/
def writeFile (outDir : Path) (w : Writing) (f : Emit.GeneratedFile) : Writing :=
  let path := outDir.join ⟨f.fileName⟩
  match w.tree.writeText outDir f.fileName f.content with
  | .ok tree =>
    { w with
      tree
      written := w.written ++ [path]
      events := w.events ++ [⟨.info, "generated",
        [("helper", f.helper), ("class", f.className), ("path", path.text)]⟩] }
  | .error o =>
    { w with
      failures := w.failures + 1
      events := w.events ++ [⟨.error, "failed to write generated file",
        [("class", f.className), ("path", path.text), ("error", o.message)]⟩] }

/-- Writes files to the output directory, which is made first.  Nothing is made for no
files. -/
def writeFiles (t : Tree) (outDir : Path) (files : List Emit.GeneratedFile) : Writing :=
  if files.isEmpty then { tree := t }
  else
    match t.makeDirectories outDir with
    | (t, none) => files.foldl (writeFile outDir) { tree := t, tried := files }
    | (t, some o) =>
      { tree := t
        failures := files.length
        events := [⟨.error, "failed to create output directory",
          [("path", outDir.text), ("error", o.message)]⟩] }

/-- What generating gives: the outcome, the tree after it and the files it set out to
write. -/
structure Generation extends Outcome Summary where
  tree : Tree
  tried : List Emit.GeneratedFile := []

/-- Writes the modules of all accepted helpers. -/
def generate (w : Workspace) (s : Settings)
    (read : Source.Reader := Source.SourceFile.read) : Generation :=
  match w.analyze s read with
  | .error f => ⟨.failed f, w.tree, []⟩
  | .ok a =>
    let outDir := w.absolute s.outDir
    let files := Emit.generate s.runtime outDir a.validation.helpers
    let done := writeFiles w.tree outDir files
    let summary : Summary :=
      ⟨a.validation.helpers.length, a.tables, done.written, done.failures⟩
    { result := unlessRejected a.validation (.ok summary)
      events := a.validation.events ++ done.events
      tree := done.tree
      tried := done.tried }

end Workspace

end DaoGen
