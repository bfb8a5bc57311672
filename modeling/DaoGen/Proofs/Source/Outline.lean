import DaoGen.Source.Values
set_option autoImplicit false

/-!
# What a file says without its places

The outline of what a file says leaves out where things stand.  It also leaves out what is kept as
text because it has no form of its own: the wording of the types of fields, except for the
keywords, and that of expressions.  Lookups by key, by name and by what can be left out do not ask
for more than the outline (`Source.Expr.lookup_outline`, `Source.Parameter.canBeOmitted_outline`).
-/

namespace DaoGen.Source

/-! ## Types -/

/-- The name of a primitive, when it is a keyword. -/
def keywordOnly (name : String) : String := if primitiveNames.contains name then name else ""

/-- A type by the names that it refers to, or by its keyword. -/
def TypeShape.outline : TypeShape → TypeShape
  | primitive name => primitive (keywordOnly name)
  | type => union (type.references.map (reference · []))

/-- A type without its text. -/
def Annotation.outline (a : Annotation) : Annotation := ⟨"", a.shape.outline⟩

namespace TypeShape

theorem references_outline (type : TypeShape) : type.outline.references = type.references := by
  have hnames : ∀ names : List String,
      referencesOfAll (names.map (reference · [])) = names := by
    intro names
    induction names with
    | nil => rfl
    | cons name rest ih =>
      rw [List.map_cons, referencesOfAll, references, referencesOfAll, ih]
      rfl
  cases type with
  | primitive => rfl
  | _ => exact hnames _

end TypeShape

/-! ## Expressions -/

namespace Expr

mutual

/-- An expression without its places and without the text of what has no form. -/
def outline : Expr → Expr
  | name _ text => name default text
  | string _ value => string default value
  | number _ value => number default value
  | boolean _ value => boolean default value
  | null _ => null default
  | array _ elements => array default (outlines elements)
  | object _ properties => object default (outlineMembers properties)
  | member _ target property => member default (outline target) property
  | call _ callee arguments => call default (outline callee) (outlines arguments)
  | unary _ operator operand => unary default operator (outline operand)
  | other _ _ => other default ""

/-- The outlines of some expressions. -/
def outlines : List Expr → List Expr
  | [] => []
  | e :: rest => outline e :: outlines rest

/-- The outlines of the members of an object. -/
def outlineMembers : List (String × Expr) → List (String × Expr)
  | [] => []
  | (key, value) :: rest => (key, outline value) :: outlineMembers rest

end

theorem outlines_eq_map (es : List Expr) : outlines es = es.map outline := by
  induction es with
  | nil => rfl
  | cons e rest ih => rw [outlines, List.map_cons, ih]

theorem outlineMembers_eq_map (members : List (String × Expr)) :
    outlineMembers members = members.map fun m => (m.1, m.2.outline) := by
  induction members with
  | nil => rfl
  | cons m rest ih => rw [outlineMembers, List.map_cons, ih]

theorem span_outline (e : Expr) : e.outline.span = default := by
  cases e <;> rfl

theorem lookup_outline (key : String) (members : List (String × Expr)) :
    (outlineMembers members).lookup key = (members.lookup key).map outline := by
  induction members with
  | nil => rfl
  | cons m rest ih =>
    obtain ⟨name, value⟩ := m
    rw [outlineMembers, List.lookup_cons, List.lookup_cons]
    split
    · rfl
    · exact ih

theorem property?_outline (key : String) (e : Expr) :
    e.outline.property? key = (e.property? key).map outline := by
  cases e with
  | object span properties => exact lookup_outline key properties
  | _ => rfl

end Expr

/-! ## Classes and files -/

/-- A decorator without its place and without the wording of its qualifier. -/
def Decorator.outline (d : Decorator) : Decorator :=
  { name := d.name
    qualifier := d.qualifier.map fun _ => ""
    arguments := d.arguments.map (·.outline)
    span := default }

/-- A field without its place and without the wording of its type. -/
def Field.outline (f : Field) : Field :=
  { f with
    type := f.type.map (·.outline)
    decorators := f.decorators.map (·.outline)
    span := default }

/-- A parameter without its place and without the wording of its default. -/
def Parameter.outline (p : Parameter) : Parameter :=
  { p with default := p.default.map fun _ => "", span := Inhabited.default }

/-- A method without its places. -/
def Method.outline (m : Method) : Method :=
  { m with
    parameters := m.parameters.map (·.outline)
    decorators := m.decorators.map (·.outline)
    span := default }

/-- A class without its places. -/
def SourceClass.outline (c : SourceClass) : SourceClass :=
  { c with
    decorators := c.decorators.map (·.outline)
    fields := c.fields.map (·.outline)
    methods := c.methods.map (·.outline)
    span := default }

/-- An import without its place. -/
def Import.outline (i : Import) : Import := { i with span := default }

/-- A source file without its text and its places. -/
def SourceFile.outline (f : SourceFile) : SourceFile :=
  { f with
    text := ""
    imports := f.imports.map (·.outline)
    classes := f.classes.map (·.outline) }

theorem Parameter.canBeOmitted_outline (p : Parameter) :
    p.outline.canBeOmitted = p.canBeOmitted := by
  unfold Parameter.canBeOmitted Parameter.outline
  cases p.default <;> rfl

end DaoGen.Source
