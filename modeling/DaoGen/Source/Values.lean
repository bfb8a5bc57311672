import DaoGen.Number.Literal
import DaoGen.Source.Basic
import DaoGen.Syntax.Tree
set_option autoImplicit false

/-!
# Types and expressions of a tree

The shape of a type and the form of an expression are read off their syntax trees.
What has no shape or form of its own is kept as text.
-/

namespace DaoGen.Source

open DaoGen.Syntax

/-! ## Types -/

/-- Names of types that are written like named types but mean a primitive. -/
def primitiveNames : List String :=
  ["string", "number", "bigint", "boolean", "void", "null", "undefined"]

/-- The shape of a type that is just a name. -/
def TypeShape.ofName (name : String) : TypeShape :=
  if primitiveNames.contains name then .primitive name else .reference name []

/-- The members of a union that one of its parts contributes; `undefined` contributes
none. -/
def TypeShape.contribution : TypeShape → List TypeShape
  | union members => members
  | primitive name => if name = "undefined" then [] else [primitive name]
  | type => [type]

/-- Whether a part of a union is `undefined`. -/
def TypeShape.isUndefined : TypeShape → Bool
  | primitive name => name = "undefined"
  | _ => false

/-- The union of some parts; of a single one and `undefined` it is optional. -/
def TypeShape.ofUnion (parts : List TypeShape) : TypeShape :=
  match parts.flatMap (·.contribution), parts.any (·.isUndefined) with
  | [type], true => optional type
  | members, _ => union members

mutual

/-- The shape of a type. -/
def shapeOf (n : Node) : TypeShape :=
  match n with
  | .leaf _ kind _ _ text =>
    if kind = .typeName then .ofName (String.ofList text) else .primitive (String.ofList text)
  | .branch _ kind children =>
    match kind with
    | .nestedTypeName => .ofName n.string
    | .genericType =>
      .reference (((n.child? .name).map (·.string)).getD "") (argumentShapes children)
    | .arrayType => .array ((innerShape ["[", "]"] children).getD (.primitive "unknown"))
    | .unionType => .ofUnion (memberShapes children)
    | .parenthesizedType => (innerShape ["(", ")"] children).getD (.primitive "unknown")
    | _ => .primitive n.string

/-- The shape of the first node that is none of the given marks. -/
def innerShape (marks : List String) : List Node → Option TypeShape
  | [] => none
  | node :: rest =>
    if node.kind = .mark && marks.contains node.string then innerShape marks rest
    else some (shapeOf node)

/-- The shapes of all nodes but the bars between them. -/
def memberShapes : List Node → List TypeShape
  | [] => []
  | node :: rest =>
    if node.isMark "|" then memberShapes rest else shapeOf node :: memberShapes rest

/-- The shapes of the named nodes. -/
def namedShapes : List Node → List TypeShape
  | [] => []
  | node :: rest => if node.isNamed then shapeOf node :: namedShapes rest else namedShapes rest

/-- The shapes of the type arguments among some nodes. -/
def argumentShapes : List Node → List TypeShape
  | [] => []
  | .branch .typeArguments _ children :: _ => namedShapes children
  | _ :: rest => argumentShapes rest

end

/-- The annotation that a type clause holds: the first node after its colon. -/
def annotationOf (n : Node) : Option Annotation :=
  (n.children.find? (!·.isMark ":")).map fun type => ⟨type.string, shapeOf type⟩

/-! ## Expressions -/

/-- The text of a literal between its quotes. -/
def unquoted (text : List Char) : List Char :=
  match text with
  | [] => []
  | quote :: rest =>
    if ['"', '\'', '\x60'].contains quote && rest.getLast? = some quote then rest.dropLast
    else text

/-- The text of a key without quotes around it. -/
def trimmedKey (text : List Char) : List Char :=
  let isQuote (c : Char) : Bool := c = '"' || c = '\''
  ((text.dropWhile isQuote).reverse.dropWhile isQuote).reverse

/-- The text of the first node in a role. -/
def roleText (role : Role) (nodes : List Node) : Option String :=
  (nodes.find? (·.role = role)).map (·.string)

/-- The form of an expression without parts that are expressions. -/
def leafForm (kind : Kind) (span : Text.Span) (text : List Char) : Expr :=
  match kind with
  | .name => .name span (String.ofList text)
  | .string => .string span (String.ofList (unquoted text))
  | .number =>
    match Number.ofLiteral? text with
    | some value => .number span value
    | none => .other span (String.ofList text)
  | .true => .boolean span true
  | .false => .boolean span false
  | .null => .null span
  | _ => .other span (String.ofList text)

mutual

/-- The form of an expression. -/
def formOf (n : Node) : Expr :=
  match n with
  | .leaf _ kind _ _ text => leafForm kind n.span text
  | .branch _ kind children =>
    match kind with
    | .string => .string n.span (String.ofList (unquoted n.text))
    | .template => .string n.span (String.ofList (unquoted n.text))
    | .array => .array n.span (forms children)
    | .object => .object n.span (properties children)
    | .member =>
      match roleForm .object children, roleText .property children with
      | some target, some property => .member n.span target property
      | _, _ => .other n.span n.string
    | .call =>
      match roleForm .function children with
      | some callee => .call n.span callee (argumentForms children)
      | none => .other n.span n.string
    | .unary =>
      match roleText .operator children, roleForm .argument children with
      | some operator, some operand => .unary n.span operator operand
      | _, _ => .other n.span n.string
    | .parenthesized => (innerForm children).getD (.other n.span n.string)
    | .asExpression => (innerForm children).getD (.other n.span n.string)
    | .satisfies => (innerForm children).getD (.other n.span n.string)
    | _ => .other n.span n.string

/-- The forms of the named nodes that are no comments. -/
def forms : List Node → List Expr
  | [] => []
  | node :: rest =>
    if node.isNamed && !node.isComment then formOf node :: forms rest else forms rest

/-- The form of the first named node. -/
def innerForm : List Node → Option Expr
  | [] => none
  | node :: rest => if node.isNamed then some (formOf node) else innerForm rest

/-- The form of the first node in a role. -/
def roleForm (role : Role) : List Node → Option Expr
  | [] => none
  | node :: rest => if node.role = role then some (formOf node) else roleForm role rest

/-- The forms of the arguments among some nodes. -/
def argumentForms : List Node → List Expr
  | [] => []
  | .branch .arguments _ children :: _ => forms children
  | _ :: rest => argumentForms rest

/-- The pairs and shorthands among the members of an object. -/
def properties : List Node → List (String × Expr)
  | [] => []
  | .leaf role .shorthand before start text :: rest =>
    let name := String.ofList text
    (name, .name (Node.leaf role .shorthand before start text).span name) :: properties rest
  | .branch _ .pair children :: rest =>
    match (children.find? (·.role = .key)).map (trimmedKey ·.text), roleForm .value children with
    | some (c :: key), some value => (String.ofList (c :: key), value) :: properties rest
    | _, _ => properties rest
  | _ :: rest => properties rest

end

end DaoGen.Source
