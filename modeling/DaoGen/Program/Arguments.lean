import DaoGen.Program.Classes
set_option autoImplicit false

/-!
# Arguments of declarations

The options of a decorator are read member by member.  Each member either sets the
value it names or leaves an issue; nothing is passed over in silence.
-/

namespace DaoGen

open DaoGen.Source (SourceFile Expr Decorator Method)

/-! ## Values -/

/-- The greatest integer that a declared number can have. -/
def greatestInteger : Nat := Nat.pow 2 63 - 1

/-- The integer of a number literal: whole and at most 2^63, where the bound itself
counts as the greatest integer. -/
def literalInteger (value : Binary64) : Option Int :=
  value.toNat?.bind fun n =>
    if n ≤ greatestInteger + 1 then some (min n greatestInteger : Nat) else none

/-- The member of the upgrade decorator that stands for an open origin. -/
def undefinedMember : String := "UNDEFINED"

/-- The exported name that an expression stands for in a file. -/
def exportedName (p : Program) (file : FileId) : Expr → Option String
  | .name _ text => some (p.decoratorName file none text)
  | .member _ _ last => some last
  | _ => none

/-- The integer that an expression stands for in a file. -/
def integerValue (p : Program) (file : FileId) : Expr → Option Int
  | .number _ value => literalInteger value
  | .unary _ operator operand =>
    if operator = "-" then (integerValue p file operand).map (- ·)
    else if operator = "+" then integerValue p file operand
    else none
  | .member _ target property =>
    if property = undefinedMember ∧ exportedName p file target = some Marker.upgrade.name then
      some Upgrade.Origin.unsetValue
    else none
  | _ => none

/-- The dotted name that an expression is. -/
def dottedName : Expr → Option String
  | .name _ text => some text
  | .member _ target property => (dottedName target).map (· ++ "." ++ property)
  | _ => none

/-! ## Options -/

/-- The issue of an argument of a decorator. -/
def issueAt (f : SourceFile) (marker : Marker) (argument expected : String) (value : Expr) :
    ArgumentIssue :=
  ⟨marker.name, argument, expected, placeIn f value.span⟩

/-- A value with the place of the expression it came from. -/
def locatedAt {α : Type} (f : SourceFile) (e : Expr) (value : α) : Located α :=
  ⟨value, placeIn f e.span⟩

/-- The members of a decorator's options, or the issue of options that are no object.
No options have no members. -/
def optionMembers (f : SourceFile) (marker : Marker) (d : Decorator) :
    Except ArgumentIssue (List (String × Expr)) :=
  match d.arguments with
  | [] => .ok []
  | .object _ members :: _ => .ok members
  | other :: _ => .error (issueAt f marker "options" "an object literal" other)

namespace HelperDeclaration

/-- One more issue. -/
def addIssue (h : HelperDeclaration) (issue : ArgumentIssue) : HelperDeclaration :=
  { h with issues := h.issues ++ [issue] }

/-- Takes an entry of the list of tables in. -/
def addTable (p : Program) (file : FileId) (f : SourceFile) (h : HelperDeclaration) (e : Expr) :
    HelperDeclaration :=
  match dottedName e with
  | some written =>
    { h with tables := h.tables ++ [⟨written, p.resolveClass file written, placeIn f e.span⟩] }
  | none => h.addIssue (issueAt f .helper "tables" "a table class reference" e)

/-- Takes an option of a helper in. -/
def addOption (p : Program) (file : FileId) (f : SourceFile) (h : HelperDeclaration)
    (member : String × Expr) : HelperDeclaration :=
  let (key, value) := member
  let refuse (expected : String) := h.addIssue (issueAt f .helper key expected value)
  match key with
  | "name" =>
    match value with
    | .string _ name => { h with name := some (locatedAt f value name) }
    | _ => refuse "a string literal"
  | "version" =>
    match integerValue p file value with
    | some version => { h with version := some (locatedAt f value version) }
    | none => refuse "an integer literal"
  | "tables" =>
    match value with
    | .array _ elements => elements.foldl (addTable p file f) h
    | _ => refuse "an array of table classes"
  | "dropOnUpgrade" =>
    match value with
    | .boolean _ flag => { h with drops := flag }
    | _ => refuse "a boolean literal"
  | "withConfigUtil" =>
    match value with
    | .boolean _ flag => { h with writesConfig := flag }
    | _ => refuse "a boolean literal"
  | _ =>
    refuse ("one of \x60name\x60, \x60version\x60, \x60tables\x60, \x60dropOnUpgrade\x60, " ++
      "\x60withConfigUtil\x60")

/-- The helper that a decorator on a class declares. -/
def ofDecorator (p : Program) (file : FileId) (f : SourceFile) (owner : ClassId)
    (d : Decorator) : HelperDeclaration :=
  let bare : HelperDeclaration :=
    { owner, name := none, version := none, tables := [], drops := false, writesConfig := false
      issues := [], place := placeIn f d.span }
  match optionMembers f .helper d with
  | .ok members => members.foldl (addOption p file f) bare
  | .error issue => bare.addIssue issue

end HelperDeclaration

namespace RoutineDeclaration

/-- What keeps a method from being a public instance method without a result. -/
def rejection (m : Method) : Option String :=
  if m.hasKeyName then some "named by a string or computed key"
  else if m.isStatic then some "static"
  else if m.isAbstract || !m.hasBody then some "abstract"
  else if m.hasPrivateName || m.visibility = .classOnly then some "private"
  else if m.visibility = .subclasses then some "protected"
  else if m.kind ≠ .method then some "an accessor"
  else if m.isAsync then some "async"
  else
    match m.returns with
    | some type => if type.text = "void" then none else some ("declared to return " ++ type.text)
    | none => none

/-- A parameter of a routine.  Its type stands for something when it is a named type. -/
def parameterOf (p : Program) (file : FileId) (f : SourceFile) (parameter : Source.Parameter) :
    RoutineParameter :=
  { name := parameter.name
    type := parameter.type.map (·.text)
    identity := parameter.type.bind fun type =>
      match type.shape with
      | .reference name _ => p.identityOf file name
      | _ => none
    place := placeIn f parameter.span }

/-- One more issue. -/
def addIssue (r : RoutineDeclaration) (issue : ArgumentIssue) : RoutineDeclaration :=
  { r with issues := r.issues ++ [issue] }

/-- Takes an option of a routine in. -/
def addOption (p : Program) (file : FileId) (f : SourceFile) (r : RoutineDeclaration)
    (member : String × Expr) : RoutineDeclaration :=
  let (key, value) := member
  let isFrom := key = "fromVersion" || key = "from"
  let isTo := key = "toVersion" || key = "to"
  if isFrom || isTo then
    match integerValue p file value with
    | some version =>
      if isFrom then { r with fromVersion := some (locatedAt f value version) }
      else { r with toVersion := some (locatedAt f value version) }
    | none =>
      r.addIssue (issueAt f .upgrade key "an integer literal or \x60OnUpgrade.UNDEFINED\x60" value)
  else r.addIssue (issueAt f .upgrade key "one of \x60fromVersion\x60, \x60toVersion\x60" value)

/-- The routine that a decorator on a method declares. -/
def ofDecorator (p : Program) (file : FileId) (f : SourceFile) (owner : ClassId) (m : Method)
    (d : Decorator) : RoutineDeclaration :=
  let bare : RoutineDeclaration :=
    { owner, method := m.name, rejected := rejection m
      parameters := m.parameters.map (parameterOf p file f)
      fromVersion := none, toVersion := none, issues := []
      place := placeIn f m.span, decoratorPlace := placeIn f d.span }
  match optionMembers f .upgrade d with
  | .ok members => members.foldl (addOption p file f) bare
  | .error issue => bare.addIssue issue

/-- Taking an option in changes nothing but the versions and the issues. -/
theorem exists_addOption_eq (p : Program) (file : FileId) (f : SourceFile) (r : RoutineDeclaration)
    (member : String × Expr) : ∃ fromVersion toVersion issues,
      r.addOption p file f member = { r with fromVersion, toVersion, issues } := by
  unfold addOption
  dsimp only
  split
  · split
    · split <;> exact ⟨_, _, _, rfl⟩
    · exact ⟨_, _, _, rfl⟩
  · exact ⟨_, _, _, rfl⟩

theorem exists_foldl_addOption_eq (p : Program) (file : FileId) (f : SourceFile)
    (r : RoutineDeclaration) (members : List (String × Expr)) :
    ∃ fromVersion toVersion issues,
      members.foldl (addOption p file f) r = { r with fromVersion, toVersion, issues } := by
  induction members generalizing r with
  | nil => exact ⟨_, _, _, rfl⟩
  | cons member rest ih =>
    obtain ⟨_, _, _, hfirst⟩ := exists_addOption_eq p file f r member
    obtain ⟨_, _, _, hrest⟩ := ih (r.addOption p file f member)
    rw [List.foldl_cons, hrest, hfirst]
    exact ⟨_, _, _, rfl⟩

/-- All but the versions and the issues of a routine is that of its method. -/
theorem exists_ofDecorator_eq (p : Program) (file : FileId) (f : SourceFile) (owner : ClassId)
    (m : Method) (d : Decorator) : ∃ fromVersion toVersion issues, ofDecorator p file f owner m d =
      { owner, method := m.name, rejected := rejection m
        parameters := m.parameters.map (parameterOf p file f)
        fromVersion, toVersion, issues
        place := placeIn f m.span, decoratorPlace := placeIn f d.span } := by
  unfold ofDecorator
  dsimp only
  split
  · obtain ⟨_, _, _, hfold⟩ := exists_foldl_addOption_eq p file f _ _
    rw [hfold]
    exact ⟨_, _, _, rfl⟩
  · exact ⟨_, _, _, rfl⟩

end RoutineDeclaration

end DaoGen
