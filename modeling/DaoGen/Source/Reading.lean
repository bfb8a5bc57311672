import DaoGen.Source.Values
set_option autoImplicit false

/-!
# Reading a source file

Imports, classes and the names of types are read off the top level of a syntax tree.
Classes inside of functions, blocks and namespaces, and classes without a name, are
not declarations of the file.
-/

namespace DaoGen.Source

open DaoGen.Syntax

/-! ## Decorators -/

/-- The node that holds a decorator's dotted name. -/
def decoratorTarget (n : Node) : Option Node :=
  n.children.foldl (fun target child =>
    if child.isMark "@" then target
    else if child.kind = .call then child.child? .function
    else some child) none

/-- The arguments of a decorator. -/
def decoratorArguments (n : Node) : List Expr :=
  n.children.foldl (fun found child =>
    if child.kind = .call then argumentForms child.children else found) []

/-- A dotted name before and after its last dot. -/
def splitPath (path : List Char) : Option String × String :=
  let name := path.reverse.takeWhile (· ≠ '.')
  if name.length < path.length then
    (some (String.ofList (path.take (path.length - name.length - 1))),
      String.ofList name.reverse)
  else (none, String.ofList path)

/-- A decorator. -/
def readDecorator (n : Node) : Decorator :=
  let (qualifier, name) := splitPath (((decoratorTarget n).map (·.text)).getD [])
  ⟨name, qualifier, decoratorArguments n, n.span⟩

/-- The decorators among some nodes. -/
def decoratorsIn (nodes : List Node) : List Decorator :=
  (nodes.filter (·.kind = .decorator)).map readDecorator

/-! ## Members -/

/-- The annotation of the last type clause among some nodes. -/
def annotationIn (nodes : List Node) : Option Annotation :=
  ((nodes.filter (·.kind = .typeClause)).getLast?).bind annotationOf

/-- Whether a word is among some nodes. -/
def hasWord (word : String) (nodes : List Node) : Bool := nodes.any (·.isMark word)

/-- A field with the decorators in front of it; nothing for a field that is named by a
key. -/
def readField (pending : List Decorator) (n : Node) : Option Field :=
  let name := n.children.find? fun c => c.kind = .propertyName || c.kind = .privateName
  name.map fun name =>
    { name := name.string
      type := annotationIn n.children
      isStatic := hasWord "static" n.children
      decorators := pending ++ decoratorsIn n.children
      span := n.span }

/-- The name of a parameter: its pattern without leading dots. -/
def trimDots : List Char → List Char
  | '.' :: '.' :: '.' :: rest => trimDots rest
  | text => text

/-- A parameter. -/
def readParameter (n : Node) : Option Parameter :=
  (n.child? .pattern).bind fun pattern =>
    let name := trimDots pattern.text
    if name.isEmpty then none
    else
      some
        { name := String.ofList name
          type := (n.child? .type).bind annotationOf
          optional := n.kind = .optionalParameter || pattern.kind = .restPattern
          default := (n.child? .value).map (·.string)
          span := n.span }

/-- The parameters of a parameter list. -/
def readParameters (n : Node) : List Parameter :=
  (n.children.filter fun c =>
    c.kind = .requiredParameter || c.kind = .optionalParameter).filterMap readParameter

/-- Whether a node names a method by a key. -/
def isKeyName (n : Node) : Bool :=
  n.kind = .string || n.kind = .number || n.kind = .computedName

/-- Whether a node names a method. -/
def isMethodName (n : Node) : Bool :=
  n.kind = .propertyName || n.kind = .privateName || isKeyName n

/-- The visibility that some nodes declare. -/
def visibilityIn (nodes : List Node) : Visibility :=
  match (nodes.filter (·.kind = .accessibility)).getLast?.map (·.string) with
  | some "private" => .classOnly
  | some "protected" => .subclasses
  | _ => .unrestricted

/-- What a method is for: one that is named `constructor`, and not by a key, makes
instances whatever its modifiers say. -/
def methodKind (name : String) (keyed : Bool) (nodes : List Node) : MethodKind :=
  if name = "constructor" && !keyed then .constructor
  else if hasWord "get" nodes then .getter
  else if hasWord "set" nodes then .setter
  else .method

/-- A method with the decorators in front of it. -/
def readMethod (pending : List Decorator) (n : Node) : Option Method :=
  let nodes := n.children
  let names := nodes.filter isMethodName
  names.getLast?.map fun last =>
    let name := last.string
    let keyed := names.any isKeyName
    { name
      kind := methodKind name keyed nodes
      parameters :=
        ((nodes.filter (·.kind = .parameters)).getLast?.map readParameters).getD []
      decorators := pending ++ decoratorsIn nodes
      visibility := visibilityIn nodes
      isStatic := hasWord "static" nodes
      isAbstract := n.kind = .abstractSignature || hasWord "abstract" nodes
      isAsync := hasWord "async" nodes
      returns := annotationIn nodes
      hasPrivateName := names.any (·.kind = .privateName)
      hasKeyName := keyed
      hasBody := nodes.any (·.kind = .block)
      span := n.span }

/-- What a class body holds. -/
structure Members where
  fields : List Field := []
  methods : List Method := []
  /-- decorators that stand in front of the next member -/
  pending : List Decorator := []

/-- Takes one more node of a class body in. -/
def Members.add (m : Members) (n : Node) : Members :=
  match n.kind with
  | .decorator => { m with pending := m.pending ++ [readDecorator n] }
  | .field => { m with fields := m.fields ++ (readField m.pending n).toList, pending := [] }
  | .methodDefinition | .methodSignature | .abstractSignature =>
    { m with methods := m.methods ++ (readMethod m.pending n).toList, pending := [] }
  | _ => m

/-- The members of a class body. -/
def readBody (n : Node) : Members := n.children.foldl .add {}

/-! ## Classes -/

/-- The class that a heritage names, as written. -/
def readHeritage (n : Node) : Option String :=
  (n.children.find? (·.kind = .extendsClause)).bind fun clause =>
    ((clause.child? .value) <|> clause.namedChildren.head?).map (·.string)

/-- A class with the decorators in front of it. -/
def readClass (exported : Bool) (pending : List Decorator) (n : Node) : Option SourceClass :=
  let nodes := n.children
  (nodes.filter (·.kind = .typeName)).getLast?.map fun name =>
    let body := ((nodes.filter (·.kind = .classBody)).getLast?.map readBody).getD {}
    { name := name.string
      parent := (nodes.filter (·.kind = .heritage)).getLast?.bind readHeritage
      decorators := pending ++ decoratorsIn nodes
      fields := body.fields
      methods := body.methods
      isAbstract := n.kind = .abstractClassDeclaration
      exported
      span := n.span }

/-! ## Imports -/

/-- The names that a part of an import clause binds. -/
def readClausePart (n : Node) : List ImportedName :=
  match n.kind with
  | .name => [⟨"default", some n.string⟩]
  | .wholeImport => [⟨"*", (n.children.find? (·.kind = .name)).map (·.string)⟩]
  | .namedImports =>
    (n.children.filter (·.kind = .importSpecifier)).map fun s =>
      ⟨((s.child? .name).map (·.string)).getD "", (s.child? .renamed).map (·.string)⟩
  | _ => []

/-- An import. -/
def readImport (n : Node) : Import :=
  let clause := (n.children.filter (·.kind = .importClause)).getLast?
  let specifier := (n.children.filter (·.kind = .string)).getLast?
  { names := (clause.map (·.children.flatMap readClausePart)).getD []
    specifier := (specifier.map fun s => String.ofList (unquoted s.text)).getD ""
    span := n.span }

/-! ## Files -/

/-- Whether a node declares a class. -/
def isClass (n : Node) : Bool :=
  n.kind = .classDeclaration || n.kind = .abstractClassDeclaration

/-- Whether a node declares a type other than a class. -/
def isTypeDeclaration (n : Node) : Bool :=
  n.kind = .aliasDeclaration || n.kind = .interfaceDeclaration || n.kind = .enumDeclaration

/-- The classes that a statement declares.  The decorators in front of `export` come
before those of the class. -/
def classesOf (n : Node) : List SourceClass :=
  if isClass n then (readClass false [] n).toList
  else if n.kind = .exportStatement then
    (n.children.filter isClass).filterMap (readClass true (decoratorsIn n.children))
  else []

/-- The types other than classes that a statement declares. -/
def typeNamesOf (n : Node) : List String :=
  let nodes := if n.kind = .exportStatement then n.children else [n]
  (nodes.filter isTypeDeclaration).filterMap fun t => (t.child? .name).map (·.string)

/-- What the tree of a source file says. -/
def ofTree (path : Path) (text : String) (tree : Node) : SourceFile :=
  { path, text
    imports := (tree.children.filter (·.kind = .importStatement)).map readImport
    classes := tree.children.flatMap classesOf
    typeNames := tree.children.flatMap typeNamesOf }

end DaoGen.Source
