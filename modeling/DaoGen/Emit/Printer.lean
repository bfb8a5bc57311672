import DaoGen.Emit.Code
import DaoGen.Text.Quoted
set_option autoImplicit false

/-!
# The text of generated code

Every statement starts a line of its own, indented by two blanks per level.  Between
two members of a class there is an empty line, except between two fields.
-/

namespace DaoGen.Emit

namespace TypeExpr

mutual

/-- The text of a type. -/
def render : TypeExpr → String
  | .name text => text
  | .verbatim text => text
  | .generic head arguments => head ++ "<" ++ renderAll arguments ++ ">"
  | .orNull type => render type ++ " | null"

/-- The text of a list of types. -/
def renderAll : List TypeExpr → String
  | [] => ""
  | [type] => render type
  | type :: rest => render type ++ ", " ++ renderAll rest

end

end TypeExpr

/-- How a comparison is written. -/
def Comparison.operator : Comparison → String
  | .atMost => "<="
  | .equal => "=="

namespace Expr

mutual

/-- The text of an expression. -/
def render : Expr → String
  | .name text => text
  | .this => "this"
  | .super => "super"
  | .null => "null"
  | .true => "true"
  | .number value => toString value
  | .string value => Text.quote value
  | .member target property => render target ++ "." ++ property
  | .call callee arguments => render callee ++ "(" ++ renderAll arguments ++ ")"
  | .new constructor arguments => "new " ++ constructor ++ "(" ++ renderAll arguments ++ ")"
  | .array elements => "[" ++ renderAll elements ++ "]"
  | .record key value => "\x7b " ++ key ++ ": " ++ render value ++ " \x7d"
  | .not operand => "!" ++ render operand
  | .compare comparison left right =>
    render left ++ " " ++ comparison.operator ++ " " ++ render right

/-- The text of a list of expressions. -/
def renderAll : List Expr → String
  | [] => ""
  | [expr] => render expr
  | expr :: rest => render expr ++ ", " ++ renderAll rest

end

end Expr

/-- The blanks that a line of a level starts with. -/
def indent (level : Nat) : String := String.ofList (List.replicate (2 * level) ' ')

/-- A line of a level. -/
def line (level : Nat) (text : String) : String := indent level ++ text ++ "\n"

namespace Stmt

mutual

/-- The lines of a statement. -/
def render (level : Nat) : Stmt → String
  | .eval expr => line level (expr.render ++ ";")
  | .const name value => line level ("const " ++ name ++ " = " ++ value.render ++ ";")
  | .letVar name value => line level ("let " ++ name ++ " = " ++ value.render ++ ";")
  | .assign target value => line level (target.render ++ " = " ++ value.render ++ ";")
  | .ifThen condition body =>
    line level ("if (" ++ condition.render ++ ") \x7b") ++ renderAll (level + 1) body ++
      line level "\x7d"
  | .tryCatch body error handler =>
    line level "try \x7b" ++ renderAll (level + 1) body ++
      line level ("\x7d catch (" ++ error ++ ") \x7b") ++ renderAll (level + 1) handler ++
      line level "\x7d"
  | .throw value => line level ("throw " ++ value.render ++ ";")
  | .return value => line level ("return " ++ value.render ++ ";")

/-- The lines of a list of statements. -/
def renderAll (level : Nat) : List Stmt → String
  | [] => ""
  | stmt :: rest => render level stmt ++ renderAll level rest

end

end Stmt

/-- A parameter list. -/
def renderParameters (parameters : List Parameter) : String :=
  String.intercalate ", " (parameters.map fun p => p.name ++ ": " ++ p.type.render)

namespace Member

/-- Whether a member is an instance field. -/
def isField : Member → Bool
  | .field .. => true
  | _ => false

/-- The lines of a member. -/
def render : Member → String
  | .field name type value =>
    line 1 ("private " ++ name ++ ": " ++ type.render ++ " = " ++ value.render ++ ";")
  | .constant name value =>
    line 1 ("private static readonly " ++ name ++ " = " ++ value.render ++ ";")
  | .constructor parameters body =>
    line 1 ("constructor(" ++ renderParameters parameters ++ ") \x7b") ++
      Stmt.renderAll 2 body ++ line 1 "\x7d"
  | .method modifiers name parameters result body =>
    line 1 (String.join (modifiers.map (· ++ " ")) ++ name ++ "(" ++
        renderParameters parameters ++ "): " ++ result.render ++ " \x7b") ++
      Stmt.renderAll 2 body ++ line 1 "\x7d"

/-- The lines of a list of members with the empty lines between them. -/
def renderAll : List Member → String
  | [] => ""
  | [member] => member.render
  | member :: next :: rest =>
    member.render ++ (if member.isField && next.isField then "" else "\n") ++
      renderAll (next :: rest)

end Member

/-- The lines of a class. -/
def ClassCode.render (c : ClassCode) : String :=
  line 0 ("export class " ++ c.name ++ " extends " ++ c.parent ++ " \x7b") ++
    Member.renderAll c.members ++ line 0 "\x7d"

end DaoGen.Emit
