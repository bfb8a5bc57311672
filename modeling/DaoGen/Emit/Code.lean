import DaoGen.Upgrade.Step
set_option autoImplicit false

/-!
# Generated code

The part of TypeScript that generated modules are made of: types, expressions,
statements, class members and modules.  A generated module is a value of these types
first and a text afterwards, so what it imports, declares and refers to can be read
off it without reading its text.
-/

namespace DaoGen.Emit

/-- A type in generated code. -/
inductive TypeExpr where
  /-- a named type -/
  | name (text : String)
  /-- a type copied as it was written -/
  | verbatim (text : String)
  /-- a generic type with its arguments -/
  | generic (head : String) (arguments : List TypeExpr)
  /-- a type or `null` -/
  | orNull (type : TypeExpr)
  deriving Repr, Inhabited

/-- How two values are compared. -/
inductive Comparison where
  | atMost
  | equal
  deriving DecidableEq, Repr, Inhabited

/-- An expression in generated code. -/
inductive Expr where
  /-- a variable, a parameter or a name of the module -/
  | name (text : String)
  | this
  | super
  | null
  | true
  | number (value : Nat)
  /-- a string literal -/
  | string (value : String)
  | member (target : Expr) (property : String)
  | call (callee : Expr) (arguments : List Expr)
  | new (constructor : String) (arguments : List Expr)
  | array (elements : List Expr)
  /-- an object literal with one property -/
  | record (key : String) (value : Expr)
  | not (operand : Expr)
  | compare (comparison : Comparison) (left right : Expr)
  deriving Repr, Inhabited

/-- A statement in generated code. -/
inductive Stmt where
  /-- an expression evaluated for its effect -/
  | eval (expr : Expr)
  | const (name : String) (value : Expr)
  | letVar (name : String) (value : Expr)
  | assign (target value : Expr)
  | ifThen (condition : Expr) (body : List Stmt)
  /-- a block whose failure is caught under a name -/
  | tryCatch (body : List Stmt) (error : String) (handler : List Stmt)
  | throw (value : Expr)
  | return (value : Expr)
  deriving Repr, Inhabited

/-- A parameter with its type. -/
structure Parameter where
  name : String
  type : TypeExpr
  deriving Repr, Inhabited

/-- A member of a generated class. -/
inductive Member where
  /-- an instance field, private, with its first value -/
  | field (name : String) (type : TypeExpr) (value : Expr)
  /-- a private constant of the class itself -/
  | constant (name : String) (value : Expr)
  | constructor (parameters : List Parameter) (body : List Stmt)
  /-- a method with the words that stand before its name -/
  | method (modifiers : List String) (name : String) (parameters : List Parameter)
      (result : TypeExpr) (body : List Stmt)
  deriving Repr, Inhabited

/-- The name that a member declares, if it declares one. -/
def Member.name? : Member → Option String
  | .field name .. => some name
  | .constant name _ => some name
  | .constructor .. => none
  | .method _ name .. => some name

/-- A generated class. -/
structure ClassCode where
  name : String
  parent : String
  members : List Member
  deriving Repr, Inhabited

end DaoGen.Emit
