import DaoGen.Cli.Arguments
import DaoGen.Cli.Display
set_option autoImplicit false

/-!
# Running commands

A command reads the settings file, puts its flags over the settings and makes a pass
over the workspace.  Its outcome is an exit code, the text it prints and the tree it
leaves.
-/

namespace DaoGen.Cli

/-- What running a command line gives. -/
structure Exit where
  code : Nat
  /-- what is printed on standard output -/
  output : String
  /-- why the command failed, when a pass or the settings file did -/
  failure : Option Failure := none
  tree : Tree

/-- The exit code of a command that failed. -/
def failureCode : Nat := 1

/-- The exit code of a command line that does not follow the rules. -/
def usageCode : Nat := 2

/-- The name and the version of the program. -/
def versionText : String := "ormhelper 0.1.0\n"

/-- How the program is called. -/
def usageText : String :=
  "Usage: ormhelper [--config FILE] [--verbose] COMMAND [FLAGS]\n\n" ++
    "Commands:\n" ++
    "  generate [--source DIR] [--language NAME] [--output DIR] [--print]\n" ++
    "  check    [--source DIR] [--language NAME]\n" ++
    "  plan     [--source DIR] [--language NAME] [--helper NAME] [--from VERSION] [--json]\n"

/-- The settings of a command: those of the settings file under its flags.  A file
that was asked for has to be there. -/
def settingsOf (w : Workspace) (file : Option Path) (sources : SourceOptions)
    (output : Option Path) : Except Failure Settings := do
  let path ← match file with
    | none => pure Settings.fileName
    | some path =>
      if w.contains path then pure path
      else throw (.unreadable path "config file not found")
  let s ← w.loadSettings path
  return { s with
    sourceDir := sources.source.getD s.sourceDir
    language := sources.language.getD s.language
    outDir := output.getD s.outDir }

/-- The exit of a command that failed and left the tree as it was. -/
def failing (w : Workspace) (output : String) (f : Failure) : Exit :=
  { code := failureCode, output, failure := some f, tree := w.tree }

/-- The exit of a command that only shows something. -/
def showing {α : Type} (w : Workspace) (onFailure : String) (shown : α → String) :
    Except Failure α → Exit
  | .ok a => { code := 0, output := shown a, tree := w.tree }
  | .error f => failing w onFailure f

/-- Generates; printing the modules replaces the report. -/
def runGenerate (w : Workspace) (milliseconds : Nat) (s : Settings)
    (read : Source.Reader := Source.SourceFile.read) : Exit :=
  let g := w.generate s read
  let modules := if s.echo then String.join (g.tried.map printed) else ""
  match g.result with
  | .ok summary =>
    { code := 0
      output := if s.echo then modules else generated summary milliseconds
      tree := g.tree }
  | .error f => { failing w (modules ++ failed) f with tree := g.tree }

/-- Runs a command. -/
def runCommand (w : Workspace) (milliseconds : Nat) (file : Option Path) (command : Command)
    (read : Source.Reader := Source.SourceFile.read) : Exit :=
  match command with
  | .generate sources output print =>
    match settingsOf w file sources output with
    | .error f => failing w "" f
    | .ok s => runGenerate w milliseconds { s with echo := print } read
  | .check sources =>
    match settingsOf w file sources none with
    | .error f => failing w "" f
    | .ok s => showing w failed checked (w.check s read).result
  | .plan sources helper start json =>
    match settingsOf w file sources none with
    | .error f => failing w "" f
    | .ok s => showing w "" (if json then plansJson else plans) (w.plan s helper start read).result

/-- Runs a command line.  The time that a pass took is told from outside. -/
def run (w : Workspace) (milliseconds : Nat) (args : List String)
    (read : Source.Reader := Source.SourceFile.read) : Exit :=
  match parse? args with
  | none => { code := usageCode, output := "", tree := w.tree }
  | some .version => { code := 0, output := versionText, tree := w.tree }
  | some .help => { code := 0, output := usageText, tree := w.tree }
  | some (.run file command) => runCommand w milliseconds file command read

end DaoGen.Cli
