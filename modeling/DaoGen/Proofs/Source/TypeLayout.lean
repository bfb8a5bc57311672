import DaoGen.Proofs.Source.Outline
import DaoGen.Proofs.Source.TypeNames
set_option autoImplicit false

/-!
# Layout in types

Layout is what stands between two tokens: blanks and comments.  A settled type has no positions and
none of the layout that its reading passes over.  Some layout is not passed over, and so it stays:
that inside of a dotted name, and a comment in front of the type that brackets or parentheses hold.
Settling a type changes neither its references nor its keyword
(`Source.outline_shapeOf_settledType`).
-/

namespace DaoGen

open DaoGen.Syntax (Node Kind Role)

namespace Syntax.Node

/-! ## Tokens -/

mutual

/-- The tokens of a node, one after the other. -/
def spelling : Node → List Char
  | leaf _ kind _ _ text => if kind = .comment then [] else text
  | branch _ _ children => spellings children

/-- The tokens of some nodes. -/
def spellings : List Node → List Char
  | [] => []
  | n :: rest => spelling n ++ spellings rest

end

theorem spellings_append (nodes more : List Node) :
    spellings (nodes ++ more) = spellings nodes ++ spellings more := by
  induction nodes with
  | nil => rfl
  | cons n rest ih => rw [List.cons_append, spellings, spellings, ih, List.append_assoc]

/-- A node that holds a text as one token. -/
def holding (role : Role) (kind : Kind) (text : List Char) : Node :=
  branch role kind [leaf .plain .fragment [] .start text]

/-- A node as a single token with all the layout inside of it. -/
def whole : Node → Node
  | leaf role kind _ _ text => leaf role kind [] .start text
  | branch role kind children => holding role kind (branch role kind children).text

/-- A node as a single token without any layout. -/
def spelled : Node → Node
  | leaf role kind _ _ text => leaf role kind [] .start text
  | branch role kind children => holding role kind (spellings children)

/-- A comment between the parts of a node. -/
def isLoose : Node → Bool
  | leaf .plain .comment .. => true
  | _ => false

@[simp] theorem kind_whole (n : Node) : n.whole.kind = n.kind := by cases n <;> rfl

@[simp] theorem role_whole (n : Node) : n.whole.role = n.role := by cases n <;> rfl

@[simp] theorem kind_spelled (n : Node) : n.spelled.kind = n.kind := by cases n <;> rfl

@[simp] theorem role_spelled (n : Node) : n.spelled.role = n.role := by cases n <;> rfl

theorem text_holding (role : Role) (kind : Kind) (text : List Char) :
    (holding role kind text).text = text := by
  simp [holding, Node.text, opening?, openings?, fullText, fullTexts]

@[simp] theorem text_whole (n : Node) : n.whole.text = n.text := by
  cases n with
  | leaf => rw [whole, text_leaf, text_leaf]
  | branch => exact text_holding _ _ _

@[simp] theorem string_whole (n : Node) : n.whole.string = n.string := by
  rw [string, string, text_whole]

theorem eq_of_isLoose {n : Node} (h : n.isLoose = true) :
    ∃ before start text, n = leaf .plain .comment before start text := by
  unfold isLoose at h
  split at h
  · exact ⟨_, _, _, rfl⟩
  · cases h

theorem kind_of_isLoose {n : Node} (h : n.isLoose = true) : n.kind = .comment := by
  obtain ⟨_, _, _, rfl⟩ := eq_of_isLoose h
  rfl

theorem role_of_isLoose {n : Node} (h : n.isLoose = true) : n.role = .plain := by
  obtain ⟨_, _, _, rfl⟩ := eq_of_isLoose h
  rfl

theorem isMark_eq_false {n : Node} (h : n.kind ≠ .mark) (text : String) :
    n.isMark text = false := by
  unfold isMark
  rw [decide_eq_false h, Bool.false_and]

end Syntax.Node

namespace Source

/-! ## Types -/

/-- Whether a type is a keyword, as it is written or without its layout. -/
def spellsKeyword (n : Node) : Bool :=
  primitiveNames.contains n.string || primitiveNames.contains (String.ofList n.spelling)

mutual

/-- A type without the layout that its reading passes over.  A keyword is a single token. -/
def settledType (n : Node) : Node :=
  match n with
  | .leaf role kind _ _ text => .leaf role kind [] .start text
  | .branch role kind children =>
    match kind with
    | .mark | .nestedTypeName => n.whole
    | .genericType => .branch role kind (settledTypeParts children)
    | .arrayType => .branch role kind (settledInner ["[", "]"] children)
    | .unionType => .branch role kind (settledTypes children)
    | .parenthesizedType => .branch role kind (settledInner ["(", ")"] children)
    | _ => if spellsKeyword n then n.whole else n.spelled

/-- Types and marks without comments between them. -/
def settledTypes : List Node → List Node
  | [] => []
  | n :: rest => if n.isLoose then settledTypes rest else settledType n :: settledTypes rest

/-- The name or the arguments of a generic type. -/
def settledTypePart (n : Node) : Node :=
  match n with
  | .leaf role kind _ _ text => .leaf role kind [] .start text
  | .branch role kind children =>
    match role with
    | .name => n.whole
    | .typeArguments => .branch role kind (settledTypes children)
    | _ => n.spelled

/-- The parts of a generic type without comments between them. -/
def settledTypeParts : List Node → List Node
  | [] => []
  | n :: rest =>
    if n.isLoose then settledTypeParts rest else settledTypePart n :: settledTypeParts rest

/-- What stands between some marks.  A comment in front of the type stays. -/
def settledInner (marks : List String) : List Node → List Node
  | [] => []
  | n :: rest =>
    if n.kind = .mark && marks.contains n.string then n.whole :: settledInner marks rest
    else settledType n :: settledTypes rest

end

@[simp] theorem kind_settledType (n : Node) : (settledType n).kind = n.kind := by
  cases n with
  | leaf => rfl
  | branch role kind children =>
    rw [settledType.eq_def]
    dsimp only
    split
    case h_7 => split <;> simp
    all_goals rfl

@[simp] theorem isNamed_settledType (n : Node) : (settledType n).isNamed = n.isNamed := by
  rw [Node.isNamed, Node.isNamed, kind_settledType]

theorem isOneOf_settledType (marks : List String) (n : Node) :
    isOneOf marks (settledType n) = isOneOf marks n := by
  unfold isOneOf
  rw [kind_settledType]
  by_cases hkind : n.kind = .mark
  · have hstring : (settledType n).string = n.string := by
      cases n with
      | leaf => rw [settledType, Node.string, Node.string, Node.text_leaf, Node.text_leaf]
      | branch role kind children =>
        obtain rfl : kind = .mark := hkind
        rw [settledType, Node.string_whole]
    rw [hstring]
  · rw [decide_eq_false hkind, Bool.false_and, Bool.false_and]

theorem isOneOf_singleton (mark : String) (n : Node) : isOneOf [mark] n = n.isMark mark := by
  simp [isOneOf, Node.isMark]

theorem isMark_settledType (mark : String) (n : Node) :
    (settledType n).isMark mark = n.isMark mark := by
  rw [← isOneOf_singleton, ← isOneOf_singleton, isOneOf_settledType]

/-- What stands between some marks is settled. -/
theorem find?_settledInner (marks : List String) (nodes : List Node) :
    (settledInner marks nodes).find? (!isOneOf marks ·) =
      (nodes.find? (!isOneOf marks ·)).map settledType := by
  induction nodes with
  | nil => rfl
  | cons n rest ih =>
    have hmark : (decide (n.kind = .mark) && marks.contains n.string) = isOneOf marks n := rfl
    rw [settledInner, hmark, List.find?_cons]
    cases hone : isOneOf marks n with
    | true =>
      have hwhole : isOneOf marks n.whole = true := by
        rw [isOneOf, Node.kind_whole, Node.string_whole]
        exact hone
      simpa [List.find?_cons, hwhole] using ih
    | false =>
      have hsettled : isOneOf marks (settledType n) = false := by
        rw [isOneOf_settledType, hone]
      simp [hsettled]

/-! ### References -/

theorem references_of_isLoose {n : Node} (h : n.isLoose = true) :
    (shapeOf n).references = [] := by
  obtain ⟨before, start, text, rfl⟩ := Node.eq_of_isLoose h
  rfl

/-- The types among some nodes refer to the same names when they are settled. -/
theorem references_filter_settledTypes {keep : Node → Bool}
    (hkeep : ∀ n, keep (settledType n) = keep n) {nodes : List Node}
    (h : ∀ n ∈ nodes, (shapeOf (settledType n)).references = (shapeOf n).references) :
    ((settledTypes nodes).filter keep).flatMap (fun n => (shapeOf n).references) =
      (nodes.filter keep).flatMap fun n => (shapeOf n).references := by
  induction nodes with
  | nil => rfl
  | cons n rest ih =>
    have hrest := ih fun m hm => h m (List.mem_cons_of_mem n hm)
    rw [settledTypes]
    by_cases hloose : n.isLoose = true
    · rw [if_pos hloose, hrest, List.filter_cons]
      split
      · rw [List.flatMap_cons, references_of_isLoose hloose, List.nil_append]
      · rfl
    · rw [if_neg hloose, List.filter_cons, List.filter_cons, hkeep]
      split
      · rw [List.flatMap_cons, List.flatMap_cons, hrest, h n List.mem_cons_self]
      · exact hrest

theorem role_settledTypePart (n : Node) : (settledTypePart n).role = n.role := by
  cases n with
  | leaf => rfl
  | branch role kind children =>
    rw [settledTypePart.eq_def]
    dsimp only
    split
    case h_1 => exact Node.role_whole _
    case h_2 => rfl
    case h_3 => exact Node.role_spelled _

theorem string_settledTypePart {n : Node} (h : n.role = .name) :
    (settledTypePart n).string = n.string := by
  cases n with
  | leaf => rw [settledTypePart, Node.string, Node.string, Node.text_leaf, Node.text_leaf]
  | branch role kind children =>
    obtain rfl : role = .name := h
    rw [settledTypePart, Node.string_whole]

theorem child?_name_settledTypeParts (nodes : List Node) :
    ((settledTypeParts nodes).find? (·.role = .name)).map (·.string) =
      (nodes.find? (·.role = .name)).map (·.string) := by
  induction nodes with
  | nil => rfl
  | cons n rest ih =>
    rw [settledTypeParts, List.find?_cons]
    by_cases hloose : n.isLoose = true
    · simpa [hloose, Node.role_of_isLoose hloose] using ih
    · rw [if_neg hloose, List.find?_cons, role_settledTypePart]
      by_cases hrole : n.role = .name
      · simp [hrole, string_settledTypePart hrole]
      · simpa [hrole] using ih

/-- The arguments of a generic type refer to the same names when they are settled. -/
theorem references_argumentsIn_settledTypeParts {nodes : List Node}
    (h : ∀ n ∈ nodes, ∀ m ∈ n.children,
      (shapeOf (settledType m)).references = (shapeOf m).references) :
    (argumentsIn (settledTypeParts nodes)).flatMap (fun n => (shapeOf n).references) =
      (argumentsIn nodes).flatMap fun n => (shapeOf n).references := by
  induction nodes with
  | nil => rfl
  | cons n rest ih =>
    have hrest := ih fun m hm => h m (List.mem_cons_of_mem n hm)
    rw [settledTypeParts]
    by_cases hloose : n.isLoose = true
    · have hrole : n.role ≠ .typeArguments := by
        rw [Node.role_of_isLoose hloose]
        decide
      rw [if_pos hloose, argumentsIn_cons_of_role hrole, hrest]
    · rw [if_neg hloose]
      by_cases hrole : n.role = .typeArguments
      · cases n with
        | leaf role kind before start text => exact hrest
        | branch role kind children =>
          obtain rfl : role = .typeArguments := hrole
          rw [settledTypePart, argumentsIn, argumentsIn]
          exact references_filter_settledTypes isNamed_settledType (h _ List.mem_cons_self)
      · have hsettled : (settledTypePart n).role ≠ .typeArguments := by
          rw [role_settledTypePart]
          exact hrole
        rw [argumentsIn_cons_of_role hrole, argumentsIn_cons_of_role hsettled, hrest]

theorem ownName?_settledType (n : Node) : ownName? (settledType n) = ownName? n := by
  cases n with
  | leaf => rfl
  | branch role kind children =>
    rw [settledType.eq_def]
    dsimp only
    split
    case h_2 =>
      have hstring := Node.string_whole (.branch role .nestedTypeName children)
      rw [Node.whole, Node.holding] at hstring ⊢
      simp only [ownName?, hstring]
    case h_3 =>
      have hname := child?_name_settledTypeParts children
      exact congrArg (fun name => some (Option.getD name "")) hname
    case h_7 =>
      split <;> simp [Node.whole, Node.spelled, Node.holding, ownName?, *]
    all_goals rfl

/-- A type refers to the same names when it is settled. -/
theorem references_shapeOf_settledType (n : Node) :
    (shapeOf (settledType n)).references = (shapeOf n).references := by
  have hparts : (typeParts (settledType n)).flatMap (fun part => (shapeOf part).references) =
      (typeParts n).flatMap fun part => (shapeOf part).references := by
    cases n with
    | leaf => rfl
    | branch role kind children =>
      have hchildren : ∀ child ∈ children,
          (shapeOf (settledType child)).references = (shapeOf child).references := by
        intro child hchild
        have hlt : sizeOf child < sizeOf (Node.branch role kind children) :=
          Node.sizeOf_lt_of_mem_children hchild
        exact references_shapeOf_settledType child
      have harguments : ∀ child ∈ children, ∀ m ∈ child.children,
          (shapeOf (settledType m)).references = (shapeOf m).references := by
        intro child hchild m hm
        have hlt : sizeOf m < sizeOf (Node.branch role kind children) :=
          Nat.lt_trans (Node.sizeOf_lt_of_mem_children hm)
            (Node.sizeOf_lt_of_mem_children hchild)
        exact references_shapeOf_settledType m
      have hinner (marks : List String) :
          ((settledInner marks children).find? (!isOneOf marks ·)).toList.flatMap
              (fun part => (shapeOf part).references) =
            (children.find? (!isOneOf marks ·)).toList.flatMap fun part =>
              (shapeOf part).references := by
        rw [find?_settledInner]
        cases hfind : children.find? (!isOneOf marks ·) with
        | none => rfl
        | some part => simp [hchildren part (List.mem_of_find?_eq_some hfind)]
      rw [settledType.eq_def]
      dsimp only
      split
      case h_3 => exact references_argumentsIn_settledTypeParts harguments
      case h_5 =>
        have hkeep (n : Node) : (!(settledType n).isMark "|") = !n.isMark "|" := by
          rw [isMark_settledType]
        exact references_filter_settledTypes hkeep hchildren
      case h_4 | h_6 => exact hinner _
      case h_7 => split <;> simp [Node.whole, Node.spelled, Node.holding, typeParts, *]
      all_goals rfl
  rw [references_shapeOf, references_shapeOf n, ownName?_settledType, hparts]
termination_by sizeOf n
decreasing_by all_goals exact hlt

/-! ### Keywords -/

theorem keywordOnly_of_spellsKeyword {role : Role} {kind : Kind} {children : List Node}
    (h : spellsKeyword (.branch role kind children) = false) :
    keywordOnly (Node.branch role kind children).spelled.string =
      keywordOnly (Node.branch role kind children).string := by
  obtain ⟨hstring, hspelling⟩ := Bool.or_eq_false_iff.1 h
  rw [Node.spelled, Node.string, Node.text_holding, keywordOnly, keywordOnly, hstring]
  rw [Node.spelling] at hspelling
  rw [hspelling]
  rfl

/-- The kinds of types that are no text. -/
def openedKinds : List Kind :=
  [.nestedTypeName, .genericType, .arrayType, .unionType, .parenthesizedType]

/-- A type of any other kind is kept as text. -/
theorem shapeOf_of_kind {kind : Kind} (hkind : kind ∉ openedKinds) (role : Role)
    (children : List Node) :
    shapeOf (.branch role kind children) = .primitive (Node.branch role kind children).string := by
  rw [shapeOf.eq_def]
  dsimp only
  split
  case h_6 => rfl
  all_goals exact absurd (by decide) hkind

theorem shapeOf_whole {kind : Kind} (hkind : kind ∉ openedKinds) (role : Role)
    (children : List Node) :
    shapeOf (Node.branch role kind children).whole = shapeOf (.branch role kind children) := by
  have hstring := Node.string_whole (.branch role kind children)
  rw [Node.whole, Node.holding] at hstring ⊢
  rw [shapeOf_of_kind hkind, shapeOf_of_kind hkind, hstring]

/-- A type that is a combination of others is no primitive. -/
theorem shapeOf_ne_primitive {kind : Kind} (hkind : kind ∈ [.genericType, .arrayType, .unionType])
    (role : Role) (children : List Node) (name : String) :
    shapeOf (.branch role kind children) ≠ .primitive name := by
  intro h
  rw [shapeOf.eq_def] at h
  dsimp only at h
  split at h
  case h_4 =>
    unfold TypeShape.ofUnion at h
    split at h <;> cases h
  case h_1 | h_5 | h_6 => simp_all
  all_goals cases h

/-- The outline of a type that is a combination of others follows from its references. -/
theorem outline_eq_of_references {type other : TypeShape} (htype : ∀ name, type ≠ .primitive name)
    (hother : ∀ name, other ≠ .primitive name) (h : type.references = other.references) :
    type.outline = other.outline := by
  have houtline : ∀ type : TypeShape, (∀ name, type ≠ .primitive name) →
      type.outline = .union (type.references.map (.reference · [])) := by
    intro type htype
    cases type with
    | primitive name => exact absurd rfl (htype name)
    | _ => rfl
  rw [houtline type htype, houtline other hother, h]

/-- A type has the same outline when it is settled. -/
theorem outline_shapeOf_settledType (n : Node) :
    (shapeOf (settledType n)).outline = (shapeOf n).outline := by
  have hreferences := references_shapeOf_settledType n
  cases n with
  | leaf => rfl
  | branch role kind children =>
    have hchildren : ∀ child ∈ children,
        (shapeOf (settledType child)).outline = (shapeOf child).outline := by
      intro child hchild
      have hlt : sizeOf child < sizeOf (Node.branch role kind children) :=
        Node.sizeOf_lt_of_mem_children hchild
      exact outline_shapeOf_settledType child
    rw [settledType.eq_def] at hreferences ⊢
    dsimp only at hreferences ⊢
    split
    case h_2 =>
      -- a dotted name
      have hstring := Node.string_whole (.branch role .nestedTypeName children)
      rw [Node.whole, Node.holding] at hstring ⊢
      rw [shapeOf, shapeOf, hstring]
    case h_3 | h_4 | h_5 =>
      refine outline_eq_of_references ?_ ?_ hreferences
      all_goals exact shapeOf_ne_primitive (by simp) role _
    case h_6 =>
      rw [shapeOf, shapeOf, innerShape_eq_map_find?, innerShape_eq_map_find?, find?_settledInner]
      cases hfind : children.find? (!isOneOf ["(", ")"] ·) with
      | none => rfl
      | some inner => exact hchildren inner (List.mem_of_find?_eq_some hfind)
    case h_1 => rw [shapeOf_whole (by decide)]
    case h_7 =>
      have hkind : kind ∉ openedKinds := by simp_all [openedKinds]
      by_cases hkeyword : spellsKeyword (.branch role kind children) = true
      · rw [if_pos hkeyword, shapeOf_whole hkind]
      · rw [if_neg hkeyword]
        have hkeep := keywordOnly_of_spellsKeyword (Bool.eq_false_iff.2 hkeyword)
        have hspelled : shapeOf (Node.branch role kind children).spelled =
            .primitive (Node.branch role kind children).spelled.string :=
          shapeOf_of_kind hkind role _
        rw [hspelled, shapeOf_of_kind hkind]
        exact congrArg TypeShape.primitive hkeep
termination_by sizeOf n
decreasing_by exact hlt

end Source

end DaoGen
