import DaoGen.Proofs.Program.Renaming
import DaoGen.Proofs.Source.Spans
set_option autoImplicit false

/-!
# Where the parts of a declaration stand

Whatever a declaration says has a place, which is a span of the file that the declaration was read
from: the span of its decorator, of an expression in the arguments of that decorator, or of the
method and its parameters (`placed_of_mem_declarationsOf`).  The class at the index of its owner
was read from the same file (`Program.exists_source_of_mem_declarations`).
-/

namespace DaoGen

open DaoGen.Source (SourceFile SourceClass Decorator Method Expr)

/-! ## Places of declarations -/

/-- All places of a helper declaration are of a kind. -/
structure HelperDeclaration.Placed (P : Place → Prop) (d : HelperDeclaration) : Prop where
  place : P d.place
  name : ∀ name, d.name = some name → P name.place
  version : ∀ version, d.version = some version → P version.place
  tables : ∀ entry ∈ d.tables, P entry.place
  issues : ∀ issue ∈ d.issues, P issue.place

/-- All places of a routine are of a kind. -/
structure RoutineDeclaration.Placed (P : Place → Prop) (r : RoutineDeclaration) : Prop where
  place : P r.place
  decoratorPlace : P r.decoratorPlace
  parameters : ∀ parameter ∈ r.parameters, P parameter.place
  fromVersion : ∀ version, r.fromVersion = some version → P version.place
  toVersion : ∀ version, r.toVersion = some version → P version.place
  issues : ∀ issue ∈ r.issues, P issue.place

/-- All places of a declaration are of a kind; that a class is a table has no place. -/
def Declaration.Placed (P : Place → Prop) : Declaration → Prop
  | .table _ => True
  | .helper d => d.Placed P
  | .routine r => r.Placed P

/-- The class that a declaration is made on. -/
def Declaration.owner : Declaration → ClassId
  | .table id => id
  | .helper d => d.owner
  | .routine r => r.owner

section

variable {P : Place → Prop} {S : Text.Span → Prop} {p : Program} {file : FileId} {f : SourceFile}

/-- The options of a decorator are parts of its arguments. -/
theorem spans_of_optionMembers {marker : Marker} {d : Decorator}
    {members : List (String × Expr)} (h : optionMembers f marker d = .ok members)
    (hd : d.Spanned S) : ∀ member ∈ members, ∀ x : Expr, x.Part member.2 → S x.span := by
  intro member hmember x hx
  unfold optionMembers at h
  split at h
  · obtain rfl := Except.ok.inj h
    cases hmember
  · rename_i span written rest harguments
    obtain rfl := Except.ok.inj h
    have hobject : .object span written ∈ d.arguments := by
      rw [harguments]
      exact List.mem_cons_self
    exact hd.arguments _ hobject x (.value hmember hx)
  · cases h

theorem exists_span_of_optionMembers {marker : Marker} {d : Decorator} {issue : ArgumentIssue}
    (h : optionMembers f marker d = .error issue) (hd : d.Spanned S) :
    ∃ span, S span ∧ issue.place = placeIn f span := by
  unfold optionMembers at h
  split at h
  · cases h
  · cases h
  · rename_i other rest hother harguments
    obtain rfl := Except.error.inj h
    have hmem : other ∈ d.arguments := by
      rw [harguments]
      exact List.mem_cons_self
    exact ⟨other.span, hd.arguments other hmem other .self, rfl⟩

/-! ## Helpers -/

namespace HelperDeclaration

theorem Placed.addIssue {d : HelperDeclaration} (h : d.Placed P) {issue : ArgumentIssue}
    (hissue : P issue.place) : (d.addIssue issue).Placed P := by
  refine ⟨h.place, h.name, h.version, h.tables, fun other hother => ?_⟩
  rcases List.mem_append.1 hother with hother | hother
  · exact h.issues other hother
  · rwa [List.mem_singleton.1 hother]

theorem Placed.addTable {d : HelperDeclaration} (h : d.Placed P) {e : Expr}
    (he : P (placeIn f e.span)) : (d.addTable p file f e).Placed P := by
  unfold HelperDeclaration.addTable
  split
  · refine ⟨h.place, h.name, h.version, fun entry hentry => ?_, h.issues⟩
    rcases List.mem_append.1 hentry with hentry | hentry
    · exact h.tables entry hentry
    · rwa [List.mem_singleton.1 hentry]
  · exact h.addIssue he

/-- What an option sets or leaves as an issue stands at a part of its value. -/
theorem Placed.addOption {d : HelperDeclaration} (h : d.Placed P) {member : String × Expr}
    (hmember : ∀ x : Expr, x.Part member.2 → P (placeIn f x.span)) :
    (d.addOption p file f member).Placed P := by
  obtain ⟨key, value⟩ := member
  have hvalue : P (placeIn f value.span) := hmember value .self
  have hrefuse : ∀ expected, (d.addIssue (issueAt f .helper key expected value)).Placed P :=
    fun expected => h.addIssue hvalue
  have hset : ∀ {α : Type} {a : α} {located : Located α},
      some (locatedAt f value a) = some located → P located.place := by
    intro α a located heq
    obtain rfl := Option.some.inj heq
    exact hvalue
  unfold HelperDeclaration.addOption
  dsimp only
  split
  · split
    · exact ⟨h.place, fun _ => hset, h.version, h.tables, h.issues⟩
    · exact hrefuse _
  · split
    · exact ⟨h.place, h.name, fun _ => hset, h.tables, h.issues⟩
    · exact hrefuse _
  · split
    · exact List.foldlRecOn _ _ h fun d hd e he => hd.addTable (hmember e (.element he .self))
    · exact hrefuse _
  · split
    · exact ⟨h.place, h.name, h.version, h.tables, h.issues⟩
    · exact hrefuse _
  · split
    · exact ⟨h.place, h.name, h.version, h.tables, h.issues⟩
    · exact hrefuse _
  · exact hrefuse _

theorem placed_ofDecorator (hP : ∀ span, S span → P (placeIn f span)) {owner : ClassId}
    {d : Decorator} (hd : d.Spanned S) :
    (HelperDeclaration.ofDecorator p file f owner d).Placed P := by
  unfold HelperDeclaration.ofDecorator
  have hbare : (⟨owner, none, none, [], false, false, [], placeIn f d.span⟩ :
      HelperDeclaration).Placed P :=
    ⟨hP _ hd.span, fun _ h => (nomatch h), fun _ h => (nomatch h), fun _ h => (nomatch h),
      fun _ h => (nomatch h)⟩
  split
  · rename_i members hmembers
    exact List.foldlRecOn _ _ hbare fun d' hd' member hmember => hd'.addOption fun x hx =>
      hP _ (spans_of_optionMembers hmembers hd member hmember x hx)
  · rename_i issue hissue
    obtain ⟨span, hspan, hplace⟩ := exists_span_of_optionMembers hissue hd
    refine hbare.addIssue ?_
    rw [hplace]
    exact hP span hspan

end HelperDeclaration

/-! ## Routines -/

namespace RoutineDeclaration

theorem Placed.addIssue {r : RoutineDeclaration} (h : r.Placed P) {issue : ArgumentIssue}
    (hissue : P issue.place) : (r.addIssue issue).Placed P := by
  refine ⟨h.place, h.decoratorPlace, h.parameters, h.fromVersion, h.toVersion,
    fun other hother => ?_⟩
  rcases List.mem_append.1 hother with hother | hother
  · exact h.issues other hother
  · rwa [List.mem_singleton.1 hother]

theorem Placed.addOption {r : RoutineDeclaration} (h : r.Placed P) {member : String × Expr}
    (hvalue : P (placeIn f member.2.span)) : (r.addOption p file f member).Placed P := by
  obtain ⟨key, value⟩ := member
  have hset : ∀ {α : Type} {a : α} {located : Located α},
      some (locatedAt f value a) = some located → P located.place := by
    intro α a located heq
    obtain rfl := Option.some.inj heq
    exact hvalue
  unfold RoutineDeclaration.addOption
  dsimp only
  split
  · split
    · split
      · exact ⟨h.place, h.decoratorPlace, h.parameters, fun _ => hset, h.toVersion, h.issues⟩
      · exact ⟨h.place, h.decoratorPlace, h.parameters, h.fromVersion, fun _ => hset, h.issues⟩
    · exact h.addIssue hvalue
  · exact h.addIssue hvalue

theorem placed_ofDecorator (hP : ∀ span, S span → P (placeIn f span)) {owner : ClassId}
    {m : Method} (hm : m.Spanned S) {d : Decorator} (hd : d.Spanned S) :
    (RoutineDeclaration.ofDecorator p file f owner m d).Placed P := by
  unfold RoutineDeclaration.ofDecorator
  have hparameters : ∀ parameter ∈ m.parameters.map (parameterOf p file f),
      P parameter.place := by
    intro parameter hparameter
    obtain ⟨written, hwritten, rfl⟩ := List.mem_map.1 hparameter
    exact hP _ (hm.parameters written hwritten)
  have hbare : (⟨owner, m.name, rejection m, m.parameters.map (parameterOf p file f), none, none,
      [], placeIn f m.span, placeIn f d.span⟩ : RoutineDeclaration).Placed P :=
    ⟨hP _ hm.span, hP _ hd.span, hparameters, fun _ h => (nomatch h), fun _ h => (nomatch h),
      fun _ h => (nomatch h)⟩
  split
  · rename_i members hmembers
    exact List.foldlRecOn _ _ hbare fun r hr member hmember => hr.addOption
      (hP _ (spans_of_optionMembers hmembers hd member hmember member.2 .self))
  · rename_i issue hissue
    obtain ⟨span, hspan, hplace⟩ := exists_span_of_optionMembers hissue hd
    refine hbare.addIssue ?_
    rw [hplace]
    exact hP span hspan

theorem owner_ofDecorator (owner : ClassId) (m : Method) (d : Decorator) :
    (RoutineDeclaration.ofDecorator p file f owner m d).owner = owner := by
  obtain ⟨_, _, _, h⟩ := RoutineDeclaration.exists_ofDecorator_eq p file f owner m d
  rw [h]

end RoutineDeclaration

/-! ## The declarations of a class -/

/-- What is declared on a class stands where the class, its methods and their decorators stand. -/
theorem placed_of_mem_declarationsOf (hP : ∀ span, S span → P (placeIn f span)) {owner : ClassId}
    {c : SourceClass} (hc : c.Spanned S) {declaration : Declaration}
    (h : declaration ∈ p.declarationsOf owner file f c) : declaration.Placed P := by
  rcases Program.mem_declarationsOf h with rfl | ⟨d, hd, rfl⟩ | ⟨m, hm, d, hd, rfl⟩
  · trivial
  · exact HelperDeclaration.placed_ofDecorator hP (hc.decorators d hd)
  · have hmethod := hc.methods m hm
    exact RoutineDeclaration.placed_ofDecorator hP hmethod (hmethod.decorators d hd)

theorem owner_of_mem_declarationsOf {owner : ClassId} {c : SourceClass}
    {declaration : Declaration} (h : declaration ∈ p.declarationsOf owner file f c) :
    declaration.owner = owner := by
  rcases Program.mem_declarationsOf h with rfl | ⟨d, -, rfl⟩ | ⟨m, -, d, -, rfl⟩
  · rfl
  · exact Program.owner_ofDecorator p file f owner d
  · exact RoutineDeclaration.owner_ofDecorator owner m d

end

/-- A declaration is made on a class of the file that its owner was found in. -/
theorem Program.exists_source_of_mem_declarations {dir : Path} {files : List SourceFile}
    {declaration : Declaration} (h : declaration ∈ (ofSources dir files).declarations) :
    ∃ file f c, files[file]? = some f ∧ c ∈ f.classes ∧
      declaration ∈ (ofClasses dir files).declarationsOf declaration.owner file f c ∧
      (ofSources dir files).classAt declaration.owner = .ofSource (ofFiles dir files) file f c := by
  obtain ⟨⟨⟨file, f, c⟩, owner⟩, hx, hdeclared⟩ := List.mem_flatMap.1 h
  have hget := List.mem_zipIdx_iff_getElem?.1 hx
  obtain ⟨hfile, hc⟩ := mem_sourceClasses (List.mem_of_getElem? hget)
  obtain rfl := owner_of_mem_declarationsOf hdeclared
  refine ⟨file, f, c, hfile, hc, hdeclared, ?_⟩
  show ((sourceClasses files).map fun x =>
    ScannedClass.ofSource (ofFiles dir files) x.1 x.2.1 x.2.2)[declaration.owner]?.getD default = _
  rw [List.getElem?_map, hget]
  rfl

end DaoGen
