import DaoGen.Number.Binary64
import DaoGen.Path
import DaoGen.Text.Position
set_option autoImplicit false

/-!
# What a source file says

The parts of a source file that declarations are made of: imports, and classes with
their decorators, fields and methods.  Types keep the shape that matters for naming
and resolving them; decorator arguments keep the values that they can be evaluated to.
-/

namespace DaoGen.Source

open DaoGen.Text (Span)

/-! ## Types -/

/-- The shape of a type. -/
inductive TypeShape where
  /-- a predefined type, or any type that is no combination of named types -/
  | primitive (name : String)
  | array (element : TypeShape)
  | union (members : List TypeShape)
  /-- a named type with its arguments -/
  | reference (name : String) (arguments : List TypeShape)
  /-- a type or `undefined` -/
  | optional (type : TypeShape)
  deriving Repr, Inhabited

namespace TypeShape

mutual

/-- The named types that a type mentions, outermost first. -/
def references : TypeShape → List String
  | primitive _ => []
  | array element => references element
  | union members => referencesOfAll members
  | reference name arguments => name :: referencesOfAll arguments
  | optional type => references type

/-- The named types that a list of types mentions. -/
def referencesOfAll : List TypeShape → List String
  | [] => []
  | type :: rest => references type ++ referencesOfAll rest

end

end TypeShape

/-- A type as written, with its shape. -/
structure Annotation where
  text : String
  shape : TypeShape
  deriving Repr, Inhabited

/-! ## Expressions -/

/-- An expression, as far as decorator arguments need it. -/
inductive Expr where
  | name (span : Span) (text : String)
  | string (span : Span) (value : String)
  | number (span : Span) (value : Binary64)
  | boolean (span : Span) (value : Bool)
  | null (span : Span)
  | array (span : Span) (elements : List Expr)
  | object (span : Span) (properties : List (String × Expr))
  | member (span : Span) (target : Expr) (property : String)
  | call (span : Span) (callee : Expr) (arguments : List Expr)
  | unary (span : Span) (operator : String) (operand : Expr)
  /-- anything else, by its text -/
  | other (span : Span) (text : String)
  deriving Repr, Inhabited

namespace Expr

/-- Where an expression stands. -/
def span : Expr → Span
  | name span _ | string span _ | number span _ | boolean span _ | null span | array span _
  | object span _ | member span _ _ | call span _ _ | unary span _ _ | other span _ => span

/-- The first value under a key of an object. -/
def property? (key : String) : Expr → Option Expr
  | object _ properties => properties.lookup key
  | _ => none

/-- The last name of a name or a path of members. -/
def tail? : Expr → Option String
  | name _ text => some text
  | member _ _ property => some property
  | _ => none

end Expr

/-! ## Classes -/

/-- A decorator. -/
structure Decorator where
  /-- the last part of its dotted name -/
  name : String
  /-- the parts before the last -/
  qualifier : Option String
  arguments : List Expr
  span : Span
  deriving Repr, Inhabited

/-- A field of a class. -/
structure Field where
  name : String
  type : Option Annotation
  isStatic : Bool
  decorators : List Decorator
  span : Span
  deriving Repr, Inhabited

/-- What a method is for. -/
inductive MethodKind where
  | method | constructor | getter | setter
  deriving DecidableEq, Repr, Inhabited

/-- Who may use a member. -/
inductive Visibility where
  | unrestricted | subclasses | classOnly
  deriving DecidableEq, Repr, Inhabited

/-- A parameter. -/
structure Parameter where
  name : String
  type : Option Annotation
  optional : Bool
  default : Option String
  span : Span
  deriving Repr, Inhabited

/-- Whether a caller may leave an argument out. -/
def Parameter.canBeOmitted (p : Parameter) : Bool := p.optional || p.default.isSome

/-- A method, an accessor, a constructor or a signature. -/
structure Method where
  name : String
  kind : MethodKind
  parameters : List Parameter
  decorators : List Decorator
  visibility : Visibility
  isStatic : Bool
  isAbstract : Bool
  isAsync : Bool
  returns : Option Annotation
  /-- whether its name is private by spelling -/
  hasPrivateName : Bool
  /-- whether it is named by a key: a string, a number or an expression -/
  hasKeyName : Bool
  hasBody : Bool
  span : Span
  deriving Repr, Inhabited

/-- A class. -/
structure SourceClass where
  name : String
  /-- the class it extends, as written -/
  parent : Option String
  decorators : List Decorator
  fields : List Field
  methods : List Method
  isAbstract : Bool
  exported : Bool
  span : Span
  deriving Repr, Inhabited

/-- The constructors of a class. -/
def SourceClass.constructors (c : SourceClass) : List Method :=
  c.methods.filter (·.kind = .constructor)

/-! ## Files -/

/-- An imported name: `default` for the default export and `*` for the module as a
whole. -/
structure ImportedName where
  name : String
  renamed : Option String
  deriving DecidableEq, Repr, Inhabited

/-- The name that an import binds in its file. -/
def ImportedName.localName (n : ImportedName) : String := n.renamed.getD n.name

/-- An import. -/
structure Import where
  names : List ImportedName
  specifier : String
  span : Span
  deriving Repr, Inhabited

/-- A source file. -/
structure SourceFile where
  path : Path
  text : String
  imports : List Import
  classes : List SourceClass
  /-- the type aliases, interfaces and enums of the file -/
  typeNames : List String
  deriving Repr, Inhabited

end DaoGen.Source
