import DaoGen.ModuleName
import DaoGen.Sorted
import DaoGen.Text.Quoted
set_option autoImplicit false

/-!
# Import blocks

An import block is a set of clauses; each binds a local name to an exported name
of a module, or to the whole module.  The block is written in one order whatever
order the clauses were asked for in: modules ascend by specifier, and for each the
whole-module lines come first, then one line with its named bindings.
-/

namespace DaoGen

/-- One binding of an import block. -/
structure ImportClause where
  specifier : String
  /-- the exported name, or `*` for the module as a whole -/
  exported : String
  localName : String
  deriving DecidableEq, Repr, Inhabited

/-- The exported name that stands for a module as a whole. -/
def wholeModule : String := "*"

namespace ImportClause

/-- The clause that binds a name under itself. -/
def same (specifier name : String) : ImportClause := ⟨specifier, name, name⟩

/-- Clauses are ordered by specifier, exported name and local name. -/
def le (a b : ImportClause) : Bool :=
  if a.specifier = b.specifier then
    if a.exported = b.exported then a.localName ≤ b.localName else a.exported ≤ b.exported
  else a.specifier ≤ b.specifier

/-- Whether a clause binds the module as a whole. -/
def isWhole (c : ImportClause) : Bool := c.exported = wholeModule

/-- A named binding as it is written between braces. -/
def binding (c : ImportClause) : String :=
  if c.exported = c.localName then c.localName else c.exported ++ " as " ++ c.localName

/-- The line of a clause that binds the module as a whole. -/
def wholeLine (c : ImportClause) : String :=
  "import * as " ++ c.localName ++ " from " ++ Text.quote c.specifier ++ ";\n"

end ImportClause

namespace ImportBlock

/-- Adjacent repetitions taken out. -/
def dropRepeats : List ImportClause → List ImportClause
  | [] => []
  | [c] => [c]
  | c :: d :: rest => if c = d then dropRepeats (d :: rest) else c :: dropRepeats (d :: rest)

/-- The clauses of a block in order, each once. -/
def clauses (asked : List ImportClause) : List ImportClause :=
  dropRepeats (sortBy ImportClause.le asked)

/-- The specifiers of a sorted list of clauses, each once. -/
def specifiers (sorted : List ImportClause) : List String :=
  (sorted.map (·.specifier)).eraseReps

/-- The lines of one module. -/
def moduleLines (specifier : String) (clauses : List ImportClause) : String :=
  let own := clauses.filter (·.specifier = specifier)
  let named := own.filter (!·.isWhole)
  String.join ((own.filter (·.isWhole)).map (·.wholeLine)) ++
    if named.isEmpty then ""
    else "import \x7b " ++ String.intercalate ", " (named.map (·.binding)) ++ " \x7d from " ++
      Text.quote specifier ++ ";\n"

/-- The text of the block that binds what was asked for. -/
def render (asked : List ImportClause) : String :=
  let sorted := clauses asked
  String.join ((specifiers sorted).map fun s => moduleLines s sorted)

end ImportBlock

end DaoGen
