import DaoGen.Source.Reading
set_option autoImplicit false

/-!
# Names in types

The names that a type refers to are read off its tree from the outside in.  Generic types, arrays,
unions and parentheses are opened, and what stands inside of them is read on
(`Source.typeParts`); a type of any other form is kept as text, whatever names it mentions.  So
the references of a type are the names at the open places of its tree
(`Source.mem_references_iff`).  In a type that is made of opened forms only, every name stands at
an open place (`Source.Plain.open_of_mentions`).  A type that is a name by itself, in front of its
arguments or in parentheses is read as a reference (`Source.exists_shapeOf_eq_reference_iff`).
-/

namespace DaoGen

open DaoGen.Syntax (Node Kind Role)

namespace Syntax.Node

theorem sizeOf_lt_of_mem_children {child n : Node} (h : child ∈ n.children) :
    sizeOf child < sizeOf n := by
  cases n with
  | leaf => cases h
  | branch role kind children =>
    have hlt : sizeOf child < sizeOf children := List.sizeOf_lt_of_mem h
    rw [branch.sizeOf_spec]
    omega

/-- A node stands somewhere in a tree. -/
inductive Within (n : Node) : Node → Prop where
  | self : Within n n
  | inside {role : Role} {kind : Kind} {children : List Node} {child : Node}
    (hchild : child ∈ children) (h : Within n child) : Within n (.branch role kind children)

theorem Within.of_mem_children {n child tree : Node} (h : child.Within n) (hn : n ∈ tree.children) :
    child.Within tree := by
  cases tree with
  | leaf => cases hn
  | branch role kind children => exact .inside hn h

/-- A type has a name somewhere in its tree.  A dotted name is one name. -/
inductive Mentions : Node → String → Prop where
  | name (role : Role) (before : List Char) (start : Text.Position) (text : List Char) :
    Mentions (.leaf role .typeName before start text) (String.ofList text)
  | dotted (role : Role) (children : List Node) :
    Mentions (.branch role .nestedTypeName children)
      (Node.branch role .nestedTypeName children).string
  | inside {role : Role} {kind : Kind} {children : List Node} {child : Node} {name : String}
    (hkind : kind ≠ .nestedTypeName) (hchild : child ∈ children) (h : Mentions child name) :
    Mentions (.branch role kind children) name

end Syntax.Node

namespace Source

/-! ## References of shapes -/

namespace TypeShape

theorem referencesOfAll_eq_flatMap (types : List TypeShape) :
    referencesOfAll types = types.flatMap (·.references) := by
  induction types with
  | nil => rfl
  | cons type rest ih => rw [referencesOfAll, List.flatMap_cons, ih]

theorem references_ofName (name : String) :
    (ofName name).references = if primitiveNames.contains name then [] else [name] := by
  unfold ofName
  split <;> rfl

theorem flatMap_references_contribution (type : TypeShape) :
    type.contribution.flatMap (·.references) = type.references := by
  cases type with
  | union members => rw [contribution, references, referencesOfAll_eq_flatMap]
  | primitive name =>
    rw [contribution]
    split <;> rfl
  | _ => exact List.flatMap_singleton _ _

/-- A union refers to what its parts refer to. -/
theorem references_ofUnion (parts : List TypeShape) :
    (ofUnion parts).references = parts.flatMap (·.references) := by
  have hparts : (parts.flatMap (·.contribution)).flatMap (·.references) =
      parts.flatMap (·.references) := by
    rw [List.flatMap_assoc]
    simp only [flatMap_references_contribution]
  unfold ofUnion
  split
  · rename_i type hcontribution _
    rw [← hparts, hcontribution, List.flatMap_singleton, references]
  · rw [references, referencesOfAll_eq_flatMap, hparts]

end TypeShape

/-! ## Opening a type -/

/-- Whether a node is one of some marks. -/
def isOneOf (marks : List String) (n : Node) : Bool :=
  n.kind = .mark && marks.contains n.string

/-- The type arguments among some nodes. -/
def argumentsIn : List Node → List Node
  | [] => []
  | .branch .typeArguments _ children :: _ => children.filter (·.isNamed)
  | _ :: rest => argumentsIn rest

/-- The types that a type is opened into. -/
def typeParts : Node → List Node
  | .leaf .. => []
  | .branch _ kind children =>
    match kind with
    | .genericType => argumentsIn children
    | .arrayType => (children.find? (!isOneOf ["[", "]"] ·)).toList
    | .unionType => children.filter (!·.isMark "|")
    | .parenthesizedType => (children.find? (!isOneOf ["(", ")"] ·)).toList
    | _ => []

/-- The name that a type has itself, outside of its parts. -/
def ownName? : Node → Option String
  | .leaf _ kind _ _ text =>
    if kind = .typeName ∧ String.ofList text ∉ primitiveNames then some (String.ofList text)
    else none
  | .branch role kind children =>
    let n := Node.branch role kind children
    match kind with
    | .nestedTypeName => if n.string ∉ primitiveNames then some n.string else none
    | .genericType => some (((n.child? .name).map (·.string)).getD "")
    | _ => none

theorem argumentsIn_cons_of_role {n : Node} (h : n.role ≠ .typeArguments) (rest : List Node) :
    argumentsIn (n :: rest) = argumentsIn rest := by
  rw [argumentsIn]
  rintro kind children rfl
  exact h rfl

theorem innerShape_eq_map_find? (marks : List String) (nodes : List Node) :
    innerShape marks nodes = (nodes.find? (!isOneOf marks ·)).map shapeOf := by
  induction nodes with
  | nil => rfl
  | cons n rest ih =>
    have hmark : (decide (n.kind = .mark) && marks.contains n.string) = isOneOf marks n := rfl
    rw [innerShape, List.find?_cons, hmark]
    cases isOneOf marks n with
    | true => exact ih
    | false => rfl

theorem memberShapes_eq_map_filter (nodes : List Node) :
    memberShapes nodes = (nodes.filter (!·.isMark "|")).map shapeOf := by
  induction nodes with
  | nil => rfl
  | cons n rest ih =>
    rw [memberShapes, List.filter_cons, ih]
    split <;> simp_all

theorem namedShapes_eq_map_filter (nodes : List Node) :
    namedShapes nodes = (nodes.filter (·.isNamed)).map shapeOf := by
  induction nodes with
  | nil => rfl
  | cons n rest ih =>
    rw [namedShapes, List.filter_cons, ih]
    split <;> simp_all

theorem argumentShapes_eq_map (nodes : List Node) :
    argumentShapes nodes = (argumentsIn nodes).map shapeOf := by
  fun_induction argumentsIn nodes with
  | case1 => rfl
  | case2 kind children rest => rw [argumentShapes, namedShapes_eq_map_filter]
  | case3 n rest hn ih =>
    rw [argumentShapes, ih]
    exact hn

/-- A type refers to its own name and to what its parts refer to. -/
theorem references_shapeOf (n : Node) :
    (shapeOf n).references =
      (ownName? n).toList ++ (typeParts n).flatMap fun part => (shapeOf part).references := by
  cases n with
  | leaf role kind before start text =>
    rw [shapeOf, ownName?]
    by_cases hkind : kind = .typeName
    · by_cases hname : String.ofList text ∈ primitiveNames
      · simp [hkind, hname, TypeShape.references_ofName, typeParts]
      · simp [hkind, hname, TypeShape.references_ofName, typeParts]
    · simp [hkind, TypeShape.references, typeParts]
  | branch role kind children =>
    have hinner (marks : List String) :
        ((innerShape marks children).getD (.primitive "unknown")).references =
          (children.find? (!isOneOf marks ·)).toList.flatMap fun part =>
            (shapeOf part).references := by
      rw [innerShape_eq_map_find?]
      cases children.find? (!isOneOf marks ·) with
      | none => rfl
      | some part => simp
    rw [shapeOf.eq_def (.branch role kind children)]
    dsimp only
    split
    · -- a dotted name
      by_cases hname : (Node.branch role .nestedTypeName children).string ∈ primitiveNames
      · simp [ownName?, hname, TypeShape.references_ofName, typeParts]
      · simp [ownName?, hname, TypeShape.references_ofName, typeParts]
    · -- a generic type
      rw [TypeShape.references, TypeShape.referencesOfAll_eq_flatMap, argumentShapes_eq_map,
        List.flatMap_map]
      rfl
    · -- an array
      rw [TypeShape.references]
      exact hinner _
    · -- a union
      rw [TypeShape.references_ofUnion, memberShapes_eq_map_filter, List.flatMap_map]
      rfl
    · -- parentheses
      exact hinner _
    · simp [TypeShape.references, ownName?, typeParts, *]

/-! ## Open places -/

theorem mem_children_of_mem_argumentsIn {part : Node} {nodes : List Node}
    (h : part ∈ argumentsIn nodes) : ∃ n ∈ nodes, part ∈ n.children := by
  fun_induction argumentsIn nodes with
  | case1 => cases h
  | case2 kind children rest =>
    exact ⟨_, List.mem_cons_self, (List.mem_filter.1 h).1⟩
  | case3 n rest _ ih =>
    obtain ⟨n', hn', hpart⟩ := ih h
    exact ⟨n', List.mem_cons_of_mem n hn', hpart⟩

theorem sizeOf_lt_of_mem_typeParts {part n : Node} (h : part ∈ typeParts n) :
    sizeOf part < sizeOf n := by
  cases n with
  | leaf => cases h
  | branch role kind children =>
    have hchild : ∀ child ∈ children,
        sizeOf child < sizeOf (Node.branch role kind children) := by
      intro child hmem
      exact Node.sizeOf_lt_of_mem_children hmem
    unfold typeParts at h
    dsimp only at h
    split at h
    · obtain ⟨arguments, harguments, hpart⟩ := mem_children_of_mem_argumentsIn h
      exact Nat.lt_trans (Node.sizeOf_lt_of_mem_children hpart) (hchild _ harguments)
    · exact hchild _ (List.mem_of_find?_eq_some (Option.mem_toList.1 h))
    · exact hchild _ (List.mem_filter.1 h).1
    · exact hchild _ (List.mem_of_find?_eq_some (Option.mem_toList.1 h))
    · cases h

/-- A type has a name at an open place of its tree. -/
inductive Open : Node → String → Prop where
  | own {n : Node} {name : String} (h : ownName? n = some name) : Open n name
  | part {n part : Node} {name : String} (hpart : part ∈ typeParts n) (h : Open part name) :
    Open n name

/-- A type refers to the names at the open places of its tree. -/
theorem mem_references_iff (n : Node) (name : String) :
    name ∈ (shapeOf n).references ↔ Open n name := by
  constructor
  · intro hmem
    rw [references_shapeOf] at hmem
    rcases List.mem_append.1 hmem with hown | hparts
    · exact .own (Option.mem_toList.1 hown)
    · obtain ⟨part, hpart, hmem⟩ := List.mem_flatMap.1 hparts
      have := sizeOf_lt_of_mem_typeParts hpart
      exact .part hpart ((mem_references_iff part name).1 hmem)
  · intro hopen
    induction hopen with
    | own h =>
      rw [references_shapeOf]
      exact List.mem_append_left _ (Option.mem_toList.2 h)
    | @part n part name hpart _ ih =>
      rw [references_shapeOf]
      exact List.mem_append_right _ (List.mem_flatMap.2 ⟨part, hpart, ih⟩)
termination_by sizeOf n

/-! ## Named types -/

/-- A type is a name: by itself, in front of its arguments, or in parentheses that hold nothing
before it. -/
inductive Named : Node → String → Prop where
  | own {n : Node} {name : String} (h : ownName? n = some name) : Named n name
  | parenthesized {role : Role} {children : List Node} {inner : Node} {name : String}
    (hinner : children.find? (!isOneOf ["(", ")"] ·) = some inner) (h : Named inner name) :
    Named (.branch role .parenthesizedType children) name

theorem TypeShape.ofUnion_ne_reference (parts : List TypeShape) (name : String)
    (arguments : List TypeShape) : ofUnion parts ≠ .reference name arguments := by
  unfold ofUnion
  split <;> exact TypeShape.noConfusion

theorem TypeShape.exists_ofName_eq_reference_iff {written name : String} :
    (∃ arguments, ofName written = .reference name arguments) ↔
      written ∉ primitiveNames ∧ written = name := by
  unfold ofName
  split <;> simp_all

theorem named_leaf_iff {role : Role} {kind : Kind} {before text : List Char}
    {start : Text.Position} {name : String} : Named (.leaf role kind before start text) name ↔
      ownName? (.leaf role kind before start text) = some name := by
  constructor
  · rintro ⟨hown⟩
    exact hown
  · exact .own

theorem named_branch_iff {role : Role} {kind : Kind} {children : List Node} {name : String}
    (h : kind ≠ .parenthesizedType) : Named (.branch role kind children) name ↔
      ownName? (.branch role kind children) = some name := by
  constructor
  · rintro (hown | _)
    · exact hown
    · exact absurd rfl h
  · exact .own

theorem named_parenthesized_iff {role : Role} {children : List Node} {name : String} :
    Named (.branch role .parenthesizedType children) name ↔
      ∃ inner, children.find? (!isOneOf ["(", ")"] ·) = some inner ∧ Named inner name := by
  constructor
  · rintro (hown | ⟨hinner, h⟩)
    · cases hown
    · exact ⟨_, hinner, h⟩
  · rintro ⟨inner, hinner, h⟩
    exact .parenthesized hinner h

/-- Named types are the ones that are read as references. -/
theorem exists_shapeOf_eq_reference_iff (n : Node) (name : String) :
    (∃ arguments, shapeOf n = .reference name arguments) ↔ Named n name := by
  cases n with
  | leaf role kind before start text =>
    rw [shapeOf, named_leaf_iff]
    by_cases hkind : kind = .typeName
    · rw [if_pos hkind, TypeShape.exists_ofName_eq_reference_iff]
      by_cases hname : String.ofList text ∈ primitiveNames <;> simp [ownName?, hkind, hname]
    · simp [ownName?, hkind]
  | branch role kind children =>
    rw [shapeOf.eq_def (.branch role kind children)]
    dsimp only
    split
    · -- a dotted name
      rw [TypeShape.exists_ofName_eq_reference_iff, named_branch_iff (by decide)]
      by_cases hname : (Node.branch role .nestedTypeName children).string ∈ primitiveNames <;>
        simp [ownName?, hname]
    · -- a generic type
      rw [named_branch_iff (by decide)]
      simp [ownName?]
    · -- an array
      rw [named_branch_iff (by decide)]
      simp [ownName?]
    · -- a union
      rw [named_branch_iff (by decide)]
      simp [ownName?, TypeShape.ofUnion_ne_reference]
    · -- parentheses
      rw [named_parenthesized_iff, innerShape_eq_map_find?]
      cases hinner : children.find? (!isOneOf ["(", ")"] ·) with
      | none => simp
      | some inner =>
        have := List.sizeOf_lt_of_mem (List.mem_of_find?_eq_some hinner)
        simpa using exists_shapeOf_eq_reference_iff inner name
    · rw [named_branch_iff ‹_›]
      simp [ownName?, *]
termination_by sizeOf n

/-- The kinds of types that can refer to a name. -/
def referringKinds : List Kind :=
  [.typeName, .nestedTypeName, .genericType, .arrayType, .unionType, .parenthesizedType]

/-- A type of any other kind refers to nothing, whatever it mentions. -/
theorem references_eq_nil_of_kind {n : Node} (h : n.kind ∉ referringKinds) :
    (shapeOf n).references = [] := by
  rw [references_shapeOf]
  cases n with
  | leaf role kind before start text =>
    have hkind : kind ≠ .typeName := by
      intro heq
      apply h
      simp [Node.kind, heq, referringKinds]
    simp [ownName?, typeParts, hkind]
  | branch role kind children =>
    simp only [Node.kind, referringKinds, List.mem_cons, List.not_mem_nil, or_false, not_or] at h
    simp [ownName?, typeParts, h]

/-! ## Types without other places -/

/-- A type that is just a name. -/
inductive IsName : Node → Prop where
  | plain (role : Role) (before : List Char) (start : Text.Position) (text : List Char) :
    IsName (.leaf role .typeName before start text)
  | dotted (role : Role) (children : List Node) : IsName (.branch role .nestedTypeName children)

/-- A type of which every name stands at an open place: a name, a type without names, or a
generic type, an array, a union or parentheses around such types.  In front of what an array or
parentheses hold there is nothing but their brackets. -/
inductive Plain : Node → Prop where
  | name {n : Node} (h : IsName n) : Plain n
  | silent {n : Node} (h : ∀ name, ¬ n.Mentions name) : Plain n
  | generic {role : Role} {head : Node} {arguments : List Node} (hhead : IsName head)
    (hrole : head.role = .name) (h : ∀ argument ∈ arguments, Plain argument) :
    Plain (.branch role .genericType [head, .branch .typeArguments .typeArguments arguments])
  | array {role : Role} {before after : List Node} {element : Node}
    (hbefore : ∀ n ∈ before, isOneOf ["[", "]"] n = true)
    (helement : isOneOf ["[", "]"] element = false)
    (hsilent : ∀ n ∈ before ++ after, ∀ name, ¬ n.Mentions name) (h : Plain element) :
    Plain (.branch role .arrayType (before ++ element :: after))
  | parenthesized {role : Role} {before after : List Node} {element : Node}
    (hbefore : ∀ n ∈ before, isOneOf ["(", ")"] n = true)
    (helement : isOneOf ["(", ")"] element = false)
    (hsilent : ∀ n ∈ before ++ after, ∀ name, ¬ n.Mentions name) (h : Plain element) :
    Plain (.branch role .parenthesizedType (before ++ element :: after))
  | union {role : Role} {members : List Node} (h : ∀ member ∈ members, Plain member) :
    Plain (.branch role .unionType members)

theorem IsName.eq_string {n : Node} (h : IsName n) {name : String} (hmentions : n.Mentions name) :
    name = n.string := by
  cases h with
  | plain role before start text =>
    cases hmentions
    simp [Node.string, Node.text, Node.opening?, Node.fullText]
  | dotted role children =>
    cases hmentions with
    | dotted => rfl
    | inside hkind => exact absurd rfl hkind

theorem IsName.open_of_mentions {n : Node} (h : IsName n) {name : String}
    (hmentions : n.Mentions name) (hname : name ∉ primitiveNames) : Open n name := by
  cases h with
  | plain role before start text =>
    cases hmentions
    exact .own (if_pos ⟨rfl, hname⟩)
  | dotted role children =>
    cases hmentions with
    | dotted => exact .own (if_pos hname)
    | inside hkind => exact absurd rfl hkind

/-- A type with a name in it is no mark. -/
theorem Plain.isNamed {n : Node} (h : Plain n) {name : String} (hmentions : n.Mentions name) :
    n.isNamed = true := by
  cases h with
  | name h => cases h <;> rfl
  | silent h => exact absurd hmentions (h name)
  | generic => rfl
  | array => rfl
  | parenthesized => rfl
  | union => rfl

theorem find?_eq_of_skipped {skip : Node → Bool} {before after : List Node} {element : Node}
    (hbefore : ∀ n ∈ before, skip n = true) (helement : skip element = false) :
    (before ++ element :: after).find? (!skip ·) = some element := by
  refine List.find?_eq_some_iff_append.2 ⟨by simp [helement], before, after, rfl, ?_⟩
  intro n hn
  simp [hbefore n hn]

theorem eq_or_mem_of_mem_append_cons {before after : List Node} {element child : Node}
    (h : child ∈ before ++ element :: after) : child = element ∨ child ∈ before ++ after := by
  simpa [or_left_comm] using h

/-- Every name of such a type stands at an open place. -/
theorem Plain.open_of_mentions {n : Node} (h : Plain n) {name : String}
    (hmentions : n.Mentions name) (hname : name ∉ primitiveNames) : Open n name := by
  induction h with
  | name h => exact h.open_of_mentions hmentions hname
  | silent h => exact absurd hmentions (h name)
  | @generic role head arguments hhead hrole h ih =>
    cases hmentions with
    | inside hkind hchild hmentions =>
      rcases List.mem_cons.1 hchild with rfl | hchild
      · refine .own ?_
        rw [hhead.eq_string hmentions]
        simp [ownName?, Node.child?, Node.children, hrole]
      · obtain rfl := List.mem_singleton.1 hchild
        cases hmentions with
        | @inside _ _ _ argument _ _ hargument hmentions =>
          refine .part ?_ (ih argument hargument hmentions)
          have hskip : argumentsIn [head, .branch .typeArguments .typeArguments arguments] =
              arguments.filter (·.isNamed) := by
            rw [argumentsIn_cons_of_role (by rw [hrole]; decide), argumentsIn]
          show argument ∈ argumentsIn _
          rw [hskip]
          exact List.mem_filter.2 ⟨hargument, (h argument hargument).isNamed hmentions⟩
  | @array role before after element hbefore helement hsilent h ih =>
    cases hmentions with
    | inside hkind hchild hmentions =>
      rcases eq_or_mem_of_mem_append_cons hchild with rfl | hother
      · refine .part ?_ (ih hmentions)
        exact Option.mem_toList.2 (find?_eq_of_skipped hbefore helement)
      · exact absurd hmentions (hsilent _ hother name)
  | @parenthesized role before after element hbefore helement hsilent h ih =>
    cases hmentions with
    | inside hkind hchild hmentions =>
      rcases eq_or_mem_of_mem_append_cons hchild with rfl | hother
      · refine .part ?_ (ih hmentions)
        exact Option.mem_toList.2 (find?_eq_of_skipped hbefore helement)
      · exact absurd hmentions (hsilent _ hother name)
  | @union role members h ih =>
    cases hmentions with
    | @inside _ _ _ child _ hkind hchild hmentions =>
      refine .part (List.mem_filter.2 ⟨hchild, ?_⟩) (ih child hchild hmentions)
      have hnamed := (h child hchild).isNamed hmentions
      simp_all [Node.isNamed, Node.isMark]

/-! ## Type clauses -/

/-- The type that the type clause among some nodes holds. -/
def typeNode? (nodes : List Node) : Option Node :=
  ((nodes.filter (·.kind = .typeClause)).getLast?).bind fun clause =>
    clause.children.find? (!·.isMark ":")

theorem annotationIn_eq_map (nodes : List Node) :
    annotationIn nodes = (typeNode? nodes).map fun type => ⟨type.string, shapeOf type⟩ := by
  unfold annotationIn typeNode?
  cases (nodes.filter (·.kind = .typeClause)).getLast? with
  | none => rfl
  | some clause => rfl

end Source

end DaoGen
