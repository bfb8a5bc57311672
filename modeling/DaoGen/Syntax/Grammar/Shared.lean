import DaoGen.Syntax.Form
set_option autoImplicit false

/-!
# Pieces of rules

Forms that several rules share and that are no phrases of their own.
-/

namespace DaoGen.Syntax.Grammar

open Form

/-- A name. -/
def name : Form := token .name

/-- A name in a meaning of its own. -/
def nameAs (k : Kind) : Form := ofKind k name

/-- Words that the grammar gives a meaning but that are names elsewhere. -/
def softWords : List String :=
  ["declare", "namespace", "type", "public", "private", "protected", "override", "readonly",
    "module", "any", "number", "boolean", "string", "symbol", "export", "object", "new", "get",
    "set", "async", "static", "let"]

/-- A word with a meaning, used as a name. -/
def softName : Form := choice (softWords.map fun w => token (.word w))

/-- A word with a meaning, used as a name of some kind. -/
def softNameAs (k : Kind) : Form := ofKind k softName

/-- The name of a value. -/
def valueName : Form := choice ["undefined", name]

/-- The name of a type. -/
def typeName : Form := nameAs .typeName

/-- The name of a member. -/
def memberName : Form := choice [token .privateName, nameAs .propertyName]

/-- The end of a statement: a semicolon, or nothing where it may be left out. -/
def semicolon : Form := choice [token .omitted, ";"]

/-- Expressions with commas in between, or a single one. -/
def expressions : Form := choice [of .expression, of .sequence]

/-- What may stand on the left of an assignment. -/
def target : Form :=
  choice [of .member, of .subscript, valueName, softNameAs .name, of .destructuring, of .nonNull]

/-- A variable to declare: a name or a pattern of names. -/
def variable_ : Form := choice [name, of .destructuring]

/-- Decorators in front of something. -/
def decorators : Form := many (of .decorator)

/-- Parameters and the result of a function, after its type parameters. -/
def callable : Form := of .signature

/-- A type clause in its role, where there is one. -/
def typed : Form := inRole .type (opt (of .typeClause))

/-- Declared type parameters, where there are any. -/
def generic : Form := opt (of .typeParameters)

/-- Type arguments in their role, where there are any. -/
def typeArguments : Form := inRole .typeArguments (opt (of .typeArguments))

end DaoGen.Syntax.Grammar
