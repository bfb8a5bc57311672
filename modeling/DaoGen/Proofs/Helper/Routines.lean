import DaoGen.Proofs.Helper.Conditions
import DaoGen.Proofs.Program.Aliases
import DaoGen.Proofs.Source.TypeNames
set_option autoImplicit false

/-!
# When a routine of a source file is accepted

The parameters of a routine have to be of the types that the runtime exports, as the imports of the
file say.  A type stands for one when it is read as a name (`names_iff_of_readParameter`), so
nothing may stand between the colon and the type, and a type that the file does not import stands
for none (`Program.not_hasType_of_unimported`).  A routine that meets this and the other conditions
makes the step of its versions, and any other is refused (`accepted_iff_meets`).
-/

namespace DaoGen

open DaoGen.Source (SourceFile Method Decorator Parameter readParameter)
open DaoGen.Syntax (Node)

/-! ## Types of parameters -/

/-- The type of a parameter is read as a name. -/
def Source.Parameter.Names (q : Parameter) (written : String) : Prop :=
  ∃ type arguments, q.type = some type ∧ type.shape = .reference written arguments

/-- The type of a parameter is an exported name of a package that the file imports. -/
def Program.HasType (p : Program) (file : FileId) (q : Parameter) (package name : String) : Prop :=
  ∃ written, q.Names written ∧ p.Imports file written (.package package) name

/-- The type of a parameter is read as a name if it is one, with nothing between it and the
colon. -/
theorem names_iff_of_readParameter {n : Node} {q : Parameter} (h : readParameter n = some q)
    {written : String} : q.Names written ↔ ∃ clause type, n.child? .type = some clause ∧
      clause.children.find? (!·.isMark ":") = some type ∧ Source.Named type written := by
  have htype : q.type = (n.child? .type).bind Source.annotationOf := by
    obtain ⟨pattern, -, hread⟩ := Option.bind_eq_some_iff.1 h
    dsimp only at hread
    split at hread
    · cases hread
    · cases hread
      rfl
  constructor
  · rintro ⟨declared, arguments, hdeclared, hshape⟩
    rw [htype] at hdeclared
    obtain ⟨clause, hclause, hdeclared⟩ := Option.bind_eq_some_iff.1 hdeclared
    obtain ⟨type, hfirst, rfl⟩ := Option.map_eq_some_iff.1 hdeclared
    exact ⟨clause, type, hclause, hfirst,
      (Source.exists_shapeOf_eq_reference_iff type written).1 ⟨arguments, hshape⟩⟩
  · rintro ⟨clause, type, hclause, hfirst, hnamed⟩
    obtain ⟨arguments, hshape⟩ := (Source.exists_shapeOf_eq_reference_iff type written).2 hnamed
    refine ⟨⟨type.string, Source.shapeOf type⟩, arguments, ?_, hshape⟩
    rw [htype, hclause, Option.bind_some, Source.annotationOf, hfirst, Option.map_some]

namespace RoutineDeclaration

section

variable {p : Program} {file : FileId} {f : SourceFile} {owner : ClassId} {m : Method}
  {d : Decorator} {runtime : RuntimeNames}

theorem identity_parameterOf_eq_some_iff {q : Parameter} {name : String} :
    (parameterOf p file f q).identity = some (runtimeIdentity runtime name) ↔
      p.HasType file q runtime.home name := by
  constructor
  · intro h
    obtain ⟨type, htype, hidentity⟩ := Option.bind_eq_some_iff.1 h
    split at hidentity
    · rename_i written arguments hshape
      exact ⟨written, ⟨type, arguments, htype, hshape⟩,
        Program.identityOf_eq_package_iff.1 hidentity⟩
    · cases hidentity
  · rintro ⟨written, ⟨type, arguments, htype, hshape⟩, himports⟩
    refine Option.bind_eq_some_iff.2 ⟨type, htype, ?_⟩
    rw [hshape]
    exact Program.identityOf_eq_package_iff.2 himports

theorem parameters_ofDecorator : (ofDecorator p file f owner m d).parameters =
    m.parameters.map (parameterOf p file f) := by
  obtain ⟨_, _, _, h⟩ := exists_ofDecorator_eq p file f owner m d
  rw [h]

theorem meets_parameterCount_iff : (ofDecorator p file f owner m d).Meets runtime .parameterCount ↔
    m.parameters.length = 2 := by
  rw [Meets, parameters_ofDecorator, List.length_map]

/-- A parameter of a routine is of a type of the runtime if the one of the method is. -/
theorem identity_eq_iff_hasType {i : Nat} {name : String} :
    (∀ q, (ofDecorator p file f owner m d).parameters[i]? = some q →
        q.identity = some (runtimeIdentity runtime name)) ↔
      ∀ q, m.parameters[i]? = some q → p.HasType file q runtime.home name := by
  rw [parameters_ofDecorator, List.getElem?_map]
  cases m.parameters[i]? with
  | none => exact iff_of_true nofun nofun
  | some q =>
    rw [Option.map_some]
    simp only [Option.some.injEq, forall_eq', identity_parameterOf_eq_some_iff]

/-- Each parameter of an accepted routine has a type that is imported. -/
theorem exists_hasType_of_accept {step : Upgrade.Step}
    (h : (ofDecorator p file f owner m d).accept runtime = .ok step) {q : Parameter}
    (hq : q ∈ m.parameters) : ∃ name, p.HasType file q runtime.home name := by
  have hmeets := (accept_eq_ok_iff.1 h).1
  have hcount := meets_parameterCount_iff.1 (hmeets .parameterCount)
  obtain ⟨i, hi⟩ := List.getElem?_of_mem hq
  have hlt := (List.getElem?_eq_some_iff.1 hi).1
  rw [hcount] at hlt
  match i, hlt with
  | 0, _ => exact ⟨_, identity_eq_iff_hasType.1 (hmeets .firstParameter) q hi⟩
  | 1, _ => exact ⟨_, identity_eq_iff_hasType.1 (hmeets .secondParameter) q hi⟩

end

end RoutineDeclaration

/-- A type with a plain name that the file does not import is no exported name of a package,
whether the file declares the type or not. -/
theorem Program.not_hasType_of_unimported {p : Program} {file : FileId} {q : Parameter}
    {written package name : String} (hnames : q.Names written) (hdot : '.' ∉ written.toList)
    (himport : (p.fileAt file).imports.get? written = none) :
    ¬ p.HasType file q package name := by
  rintro ⟨written', ⟨type', arguments', htype', hshape'⟩, himports⟩
  obtain ⟨type, arguments, htype, hshape⟩ := hnames
  obtain rfl := Option.some.inj (htype.symm.trans htype')
  obtain ⟨rfl, -⟩ := Source.TypeShape.reference.inj (hshape.symm.trans hshape')
  rcases himports with hbinds | ⟨-, rfl, -⟩
  · cases himport.symm.trans hbinds.imported
  · exact hdot (by simp)

/-- A routine makes the step of its versions and name exactly when it meets all conditions, and
otherwise it is refused with the diagnostic of the first that it does not meet.  Its parameters have
to be two, and of types that are read as names and stand, as the file imports them, for the
database and the connection source of the runtime; one that the file does not import is never
accepted.  A parameter's type is read as a name if it is one and nothing stands between it and the
colon. -/
theorem accepted_iff_meets (p : Program) (file : FileId) (f : SourceFile) (owner : ClassId)
    (m : Method) (d : Decorator) (runtime : RuntimeNames) :
    let r := RoutineDeclaration.ofDecorator p file f owner m d
    (∀ step, r.accept runtime = .ok step ↔ (∀ c, r.Meets runtime c) ∧ r.Yields step) ∧
    (∀ e, r.accept runtime = .error e ↔
      ∃ earlier c later, RoutineDeclaration.Condition.all = earlier ++ c :: later ∧
        (∀ c' ∈ earlier, r.Meets runtime c') ∧ ¬ r.Meets runtime c ∧ r.Reports runtime c e) ∧
    (r.method = m.name ∧ r.rejected = RoutineDeclaration.rejection m) ∧
    (r.Meets runtime .parameterCount ↔ m.parameters.length = 2) ∧
    (r.Meets runtime .firstParameter ↔
      ∀ q, m.parameters[0]? = some q → p.HasType file q runtime.home runtime.database) ∧
    (r.Meets runtime .secondParameter ↔
      ∀ q, m.parameters[1]? = some q → p.HasType file q runtime.home runtime.connectionSource) ∧
    (∀ q ∈ m.parameters, ∀ written, q.Names written → '.' ∉ written.toList →
      (p.fileAt file).imports.get? written = none → ∀ step, r.accept runtime ≠ .ok step) ∧
    ∀ n q, readParameter n = some q → ∀ written,
      (q.Names written ↔ ∃ clause type, n.child? .type = some clause ∧
        clause.children.find? (!·.isMark ":") = some type ∧ Source.Named type written) := by
  intro r
  refine ⟨fun _ => RoutineDeclaration.accept_eq_ok_iff,
    fun _ => RoutineDeclaration.accept_eq_error_iff, ?_,
    RoutineDeclaration.meets_parameterCount_iff, RoutineDeclaration.identity_eq_iff_hasType,
    RoutineDeclaration.identity_eq_iff_hasType, ?_,
    fun _ _ hread _ => names_iff_of_readParameter hread⟩
  · obtain ⟨_, _, _, h⟩ := RoutineDeclaration.exists_ofDecorator_eq p file f owner m d
    rw [show r = _ from h]
    exact ⟨rfl, rfl⟩
  · intro q hq written hnames hdot himport step haccept
    obtain ⟨name, htype⟩ := RoutineDeclaration.exists_hasType_of_accept haccept hq
    exact Program.not_hasType_of_unimported hnames hdot himport htype

/-- A routine whose first parameter has some nodes between the colon and its type. -/
def upgradeMethod (gap : List Node) : Method :=
  let leaf (role : Syntax.Role) (kind : Syntax.Kind) (text : String) : Node :=
    .leaf role kind [' '] .start text.toList
  let parameter (name type : String) (gap : List Node) : Node :=
    .branch .plain .requiredParameter
      [leaf .pattern .name name, .branch .type .typeClause
        ([leaf .plain .mark ":"] ++ gap ++ [leaf .plain .typeName type])]
  { name := "up", kind := .method
    parameters :=
      [parameter "database" "SQLiteDatabase" gap,
        parameter "connectionSource" "ConnectionSource" []].filterMap readParameter
    decorators := [], visibility := .unrestricted
    isStatic := false, isAbstract := false, isAsync := false, returns := none
    hasPrivateName := false, hasKeyName := false, hasBody := true, span := default }

/-- A comment between the colon and the type of a parameter is taken for the type, and the routine
is refused. -/
theorem refused_for_comment_before_type :
    let file : SourceFile := ⟨⟨"/src/db.ts"⟩, "",
      [⟨[⟨"SQLiteDatabase", none⟩, ⟨"ConnectionSource", none⟩], "@ormhelper/runtime", default⟩],
      [], []⟩
    let p := Program.ofSources ⟨"/src"⟩ [file]
    let comment : Node := .leaf .plain .comment [' '] .start "/* old */".toList
    let target : Decorator :=
      ⟨"OnUpgrade", none, [.object default [("toVersion", .number default (.ofNat 2))]], default⟩
    let accepted (gap : List Node) :=
      (RoutineDeclaration.ofDecorator p 0 file 0 (upgradeMethod gap) target).accept {}
    (accepted []).toOption = some ⟨⟨.unset, 2⟩, "up"⟩ ∧
      (HelperDeclaration.error? (accepted [comment])).map (·.complaint) =
        some (.upgradeFirstParameter "up" "SQLiteDatabase") := by
  decide +kernel

end DaoGen
