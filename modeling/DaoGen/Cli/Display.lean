import DaoGen.JsonText
import DaoGen.Text.Width
import DaoGen.Workspace.Pass
set_option autoImplicit false

/-!
# What commands show

Lines of text in boxes, and upgrade plans as JSON.  A line in a box is filled up by
its width on a terminal; the title of a box is counted in characters.
-/

namespace DaoGen.Cli

/-! ## Lines -/

/-- A character several times. -/
def repeated (n : Nat) (c : Char) : String := String.ofList (List.replicate n c)

/-- A line in front of which two blanks stand. -/
def line (text : String) : String := "  " ++ text ++ "\n"

/-- The top of a box. -/
def boxTop (title : String) : String :=
  let padded := " " ++ title ++ " "
  line ("╭─" ++ padded ++ repeated (55 - (padded.length + 4)) '─' ++ "╮")

/-- A line in a box. -/
def boxLine (text : String) : String :=
  line ("│ " ++ text ++ repeated (53 - Text.width text) ' ' ++ "│")

/-- The bottom of a box. -/
def boxBottom : String := line ("╰" ++ repeated 53 '─' ++ "╯")

/-- A text in columns: it is filled up to a number of characters. -/
def padTo (n : Nat) (text : String) : String := text ++ repeated (n - text.length) ' '

/-! ## Outcomes -/

/-- The numbers of helpers and tables. -/
def counts (s : Summary) : String :=
  toString s.helpers ++ " helper(s) · " ++ toString s.tables ++ " table(s)"

/-- A path that a terminal can follow. -/
def link (p : Path) : String :=
  "\x1b]8;;file://" ++ p.text ++ "\x07" ++ p.text ++ "\x1b]8;;\x07"

/-- A file that was written. -/
def writtenLine (p : Path) : String :=
  line ("▸   " ++ String.ofList (p.fileName.getD []) ++ "   " ++ link p)

/-- What generating shows in the end. -/
def generated (s : Summary) (milliseconds : Nat) : String :=
  boxTop "GENERATED" ++ boxLine "" ++ boxLine (counts s) ++ boxLine "" ++ boxBottom ++
    String.join (s.written.map writtenLine) ++
    (if 0 < s.failures then line ("◆ " ++ toString s.failures ++ " file(s) could not be written")
      else "") ++
    "\n" ++ line ("◇ Done in " ++ toString milliseconds ++ "ms")

/-- What checking shows in the end. -/
def checked (s : Summary) : String := line "◉ Looking good." ++ "\n" ++ "    " ++ counts s ++ "\n"

/-- What a pass shows that failed. -/
def failed : String := "\n" ++ line "◆ Generation failed." ++ "\n"

/-- A generated file printed as a whole. -/
def printed (f : Emit.GeneratedFile) : String :=
  "// ----- " ++ f.fileName ++ " -----\n" ++ f.content ++ "\n"

/-! ## Plans -/

/-- The guard of a step. -/
def guard (t : Upgrade.Transition) : String :=
  match t.origin with
  | .unset => "v <= " ++ toString t.target
  | .exact origin => "v == " ++ toString origin

/-- A step of a plan. -/
def stepLine (s : Upgrade.Step) : String :=
  boxLine ("▸ " ++ padTo 12 (guard s.toTransition) ++ " ─▸ " ++ s.routine)

/-- The steps of a plan. -/
def migrationLines : Upgrade.Migration → String
  | .recreate => boxLine "◎ drop every table, then create again"
  | .upgrade plan =>
    if plan.isEmpty then boxLine "no upgrade routines" else String.join (plan.steps.map stepLine)

/-- A run through a plan. -/
def runLines (plan : Upgrade.Plan) (run : Upgrade.Run) : String :=
  let fired :=
    if run.fired.isEmpty then "nothing runs"
    else String.intercalate ", " (run.fired.map (·.routine))
  let final := "ends at v" ++ toString run.final
  boxLine "" ++ boxLine ("from v" ++ toString run.start ++ " ─▸ " ++ fired) ++
    boxLine (if plan.reached run then "◉ " ++ final
      else "◆ " ++ final ++ ", short of v" ++ toString plan.target)

/-- The plan of a helper in a box. -/
def planBox (h : HelperPlan) : String :=
  boxTop (h.helper ++ " v" ++ toString h.version) ++ boxLine "" ++ migrationLines h.migration ++
    (match h.migration.plan?, h.run? with
      | some plan, some run => runLines plan run
      | _, _ => "") ++
    boxLine "" ++ boxBottom

/-- What planning shows. -/
def plans (all : List HelperPlan) : String :=
  if all.isEmpty then line "No helpers declared."
  else String.join (all.map fun h => planBox h ++ "\n")

/-! ## Plans as JSON -/

/-- A step as JSON; an open origin is null. -/
def stepJson (s : Upgrade.Step) : JsonValue :=
  .object [("from", (s.origin.version?.map JsonValue.number).getD .null),
    ("to", .number s.target), ("routine", .string s.routine)]

/-- A migration as JSON. -/
def migrationJson : Upgrade.Migration → JsonValue
  | .recreate => .object [("strategy", .string "drop_and_recreate")]
  | .upgrade plan => .object [("strategy", .string "upgrade"), ("target", .number plan.target),
      ("steps", .array (plan.steps.map stepJson))]

/-- A run as JSON. -/
def runJson (plan : Upgrade.Plan) (run : Upgrade.Run) : JsonValue :=
  .object [("start", .number run.start), ("fired", .array (run.fired.map stepJson)),
    ("final_version", .number run.final), ("reaches_target", .boolean (plan.reached run))]

/-- The plan of a helper as JSON; a run appears when there is one. -/
def planJson (h : HelperPlan) : JsonValue :=
  .object ([("helper", .string h.helper), ("class", .string h.owner),
    ("version", .number h.version), ("migration", migrationJson h.migration)] ++
    match h.migration.plan?, h.run? with
    | some plan, some run => [("simulation", runJson plan run)]
    | _, _ => [])

/-- Plans as a JSON text. -/
def plansJson (all : List HelperPlan) : String :=
  (JsonValue.array (all.map planJson)).render ++ "\n"

end DaoGen.Cli
