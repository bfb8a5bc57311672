import DaoGen.Text.Position
set_option autoImplicit false

/-!
# Syntax trees

A syntax tree keeps every character of the source it was read from: a leaf holds its
own text and the blanks before it, and comments are leaves like any other.  A node
also says what it is to the node around it.

A comment belongs to the smallest node that has something before and after it, so
no node starts with a comment that it did not need to be read.
-/

namespace DaoGen.Syntax

/-- What a node stands for. -/
inductive Kind where
  /-- a keyword, an operator or another mark -/
  | mark
  | comment
  | program
  | importStatement | importClause | wholeImport | namedImports | importSpecifier
  | exportStatement
  | classDeclaration | abstractClassDeclaration
  | aliasDeclaration | interfaceDeclaration | enumDeclaration
  /-- any other statement -/
  | statement
  | block
  | decorator
  | heritage | extendsClause | implementsClause | classBody
  | field | methodDefinition | methodSignature | abstractSignature
  | indexSignature | staticBlock | accessibility | computedName
  | typeParameters | parameters | requiredParameter | optionalParameter | restPattern
  | typeClause | predicateClause
  | predefinedType | nestedTypeName | genericType | typeArguments
  | arrayType | unionType | intersectionType | parenthesizedType
  | tupleType | objectType | functionType | conditionalType | literalType
  /-- any other type -/
  | typeOperator
  | name | typeName | propertyName | privateName | string | template | number
  | true | false | null
  | array | object | pair | shorthand | spread
  | member | call | arguments | unary | parenthesized | asExpression | satisfies
  | fragment | escape | substitution
  /-- any other expression -/
  | operation
  deriving DecidableEq, Hashable, Repr, Inhabited

/-- What a node is to the node around it. -/
inductive Role where
  | plain
  | name | renamed | pattern | type | value | key
  | object | property | function | arguments | typeArguments | operator | argument
  deriving DecidableEq, Hashable, Repr, Inhabited

/-- A syntax tree. -/
inductive Node where
  /-- a token or a comment: the blanks before it, where it starts, and its text -/
  | leaf (role : Role) (kind : Kind) (before : List Char) (start : Text.Position)
      (text : List Char)
  | branch (role : Role) (kind : Kind) (children : List Node)
  deriving Repr, Inhabited

namespace Node

/-- What a node stands for. -/
def kind : Node → Kind
  | leaf _ kind .. => kind
  | branch _ kind _ => kind

/-- What a node is to the node around it. -/
def role : Node → Role
  | leaf role .. => role
  | branch role .. => role

/-- The same node in another role. -/
def withRole (role : Role) : Node → Node
  | leaf _ kind before start text => leaf role kind before start text
  | branch _ kind children => branch role kind children

/-- Comments are nodes of their own. -/
def isComment (n : Node) : Bool := n.kind = .comment

/-- The nodes directly below a node. -/
def children : Node → List Node
  | leaf .. => []
  | branch _ _ children => children

/-- Keywords, operators and marks have no name; all other nodes do. -/
def isNamed (n : Node) : Bool := n.kind ≠ .mark

/-- The named nodes directly below a node. -/
def namedChildren (n : Node) : List Node := n.children.filter (·.isNamed)

/-- The first child in a role. -/
def child? (role : Role) (n : Node) : Option Node := n.children.find? (·.role = role)

/-! ## Text and span -/

mutual

/-- The text of a node with the blanks before it. -/
def fullText : Node → List Char
  | leaf _ _ before _ text => before ++ text
  | branch _ _ children => fullTexts children

/-- The text of a list of nodes with the blanks before them. -/
def fullTexts : List Node → List Char
  | [] => []
  | node :: rest => fullText node ++ fullTexts rest

end

mutual

/-- The blanks before a node and the position after them. -/
def opening? : Node → Option (List Char × Text.Position)
  | leaf _ _ before start _ => some (before, start)
  | branch _ _ children => openings? children

/-- The blanks before a list of nodes and the position after them. -/
def openings? : List Node → Option (List Char × Text.Position)
  | [] => none
  | node :: rest =>
    match opening? node with
    | some found => some found
    | none => openings? rest

end

/-- The text of a node. -/
def text (n : Node) : List Char :=
  match n.opening? with
  | some (before, _) => n.fullText.drop before.length
  | none => []

theorem text_leaf (role : Role) (kind : Kind) (before : List Char) (start : Text.Position)
    (text : List Char) : (leaf role kind before start text).text = text := by
  unfold Node.text
  rw [opening?, fullText]
  exact List.drop_left

/-- The text of a node as a string. -/
def string (n : Node) : String := String.ofList n.text

/-- Where a node starts. -/
def start (n : Node) : Text.Position :=
  match n.opening? with
  | some (_, start) => start
  | none => .start

/-- Where a node starts and ends. -/
def span (n : Node) : Text.Span := ⟨n.start, n.start.advance n.text⟩

/-- Whether a node is the given keyword or mark. -/
def isMark (text : String) (n : Node) : Bool := n.kind = .mark && n.string = text

/-- A role for every node that is not a comment. -/
def assign (role : Role) (nodes : List Node) : List Node :=
  nodes.map fun n => if n.isComment then n else n.withRole role

end Node

end DaoGen.Syntax
