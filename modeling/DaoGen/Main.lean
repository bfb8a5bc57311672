import DaoGen.Cli.Command
set_option autoImplicit false

/-!
# The command line program

Reads the places that a command line names into a tree, runs the command on it, and
carries out what has changed.  The time that is shown is the time of reading.
-/

namespace DaoGen.Cli

/-- Directories are read no deeper than this. -/
def depthLimit : Nat := 100

/-- A tree with what a path leads to and all that lies below it. -/
def addBelow : Nat → Path → Tree → IO Tree
  | 0, _, tree => return tree
  | bound + 1, path, tree => do
    let place ← try pure (some (← IO.FS.realPath path.text)) catch _ => pure none
    match place with
    | none => return tree
    | some place =>
      if ← place.isDir then
        let mut tree := tree.put path.location .directory
        for entry in ← place.readDir do
          tree ← addBelow bound (path.join ⟨entry.fileName⟩) tree
        return tree
      else
        try
          let bytes ← IO.FS.readBinFile path.text
          return tree.put path.location (.file (.ofBytes bytes.toList))
        catch _ => return tree

/-- A tree with the directories that lead to a path. -/
def addAbove (path : Path) (tree : Tree) : IO Tree := do
  let names := path.location
  let mut tree := tree
  for n in [1 : names.length + 1] do
    tree ← addBelow 1 (Path.below ⟨"/"⟩ (names.take n)) tree
  return tree

/-- The settings file that a request reads. -/
def settingsFileOf : Request → Option Path
  | .run file _ => some (file.getD Settings.fileName)
  | .version | .help => none

/-- The settings of a request. -/
def settingsOfRequest (w : Workspace) : Request → Except Failure Settings
  | .run file (.generate sources output _) => settingsOf w file sources output
  | .run file (.check sources) | .run file (.plan sources _ _ _) => settingsOf w file sources none
  | .version | .help => .ok {}

/-- The tree that a request is about. -/
def readTree (cwd : Path) (request : Request) : IO Tree := do
  let tree ← addAbove cwd {}
  match settingsFileOf request with
  | none => return tree
  | some file =>
    let w : Workspace := ⟨tree, cwd⟩
    let tree ← addAbove (w.absolute file) tree
    match settingsOfRequest ⟨tree, cwd⟩ request with
    | .error _ => return tree
    | .ok s =>
      let source := w.absolute s.sourceDir
      let out := w.absolute s.outDir
      let tree ← addAbove source tree
      let tree ← addBelow depthLimit source tree
      let tree ← addAbove out tree
      addBelow 2 out tree

/-- Makes and writes what one tree has and another has not. -/
def writeChanges (before after : Tree) : IO Unit := do
  for (l, entry) in after.entries do
    if before.get? l ≠ some entry then
      let path := Path.below ⟨"/"⟩ l
      match entry with
      | .directory => IO.FS.createDirAll path.text
      | .file (.text text) => IO.FS.writeFile path.text text
      | .file (.bytes bytes) => IO.FS.writeBinFile path.text ⟨bytes.toArray⟩

end DaoGen.Cli

/-- Runs a command line in the working directory. -/
def main (args : List String) : IO UInt32 := do
  let start ← IO.monoMsNow
  let cwd : DaoGen.Path := ⟨(← IO.currentDir).toString⟩
  let tree ←
    match DaoGen.Cli.parse? args with
    | none => pure {}
    | some request => DaoGen.Cli.readTree cwd request
  let stop ← IO.monoMsNow
  let exit := DaoGen.Cli.run ⟨tree, cwd⟩ (stop - start) args
  DaoGen.Cli.writeChanges tree exit.tree
  IO.print exit.output
  match exit.failure with
  | none => pure ()
  | some failure => IO.eprintln failure.message
  return exit.code.toUInt32
