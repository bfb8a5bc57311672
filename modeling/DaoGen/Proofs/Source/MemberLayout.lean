import DaoGen.Proofs.Source.DecoratorLayout
import Mathlib.Data.List.Forall2
set_option autoImplicit false

/-!
# Layout in fields and methods

A settled field or method has no positions, and none of the layout in its decorators and in the
type of a field that reading passes over.  Where nothing is read, as in the body of a method, it has
no layout at all; what is read elsewhere keeps its layout.  A field is read as the same when it is
settled, up to the wording of its type (`Source.settles_readField`), and so is a method
(`Source.outline_readMethod`).
-/

namespace DaoGen

open DaoGen.Syntax (Node Kind Role)

namespace Syntax.Node

/-! ## Nodes without positions -/

mutual

/-- A node without positions. -/
def fixed : Node → Node
  | leaf role kind before _ text => leaf role kind before .start text
  | branch role kind children => branch role kind (fixedAll children)

/-- Some nodes without positions. -/
def fixedAll : List Node → List Node
  | [] => []
  | n :: rest => fixed n :: fixedAll rest

end

theorem fixedAll_eq_map (nodes : List Node) : fixedAll nodes = nodes.map fixed := by
  induction nodes with
  | nil => rfl
  | cons n rest ih => rw [fixedAll, List.map_cons, ih]

@[simp] theorem kind_fixed (n : Node) : n.fixed.kind = n.kind := by cases n <;> rfl

@[simp] theorem role_fixed (n : Node) : n.fixed.role = n.role := by cases n <;> rfl

theorem children_fixed (n : Node) : n.fixed.children = n.children.map fixed := by
  cases n with
  | leaf => rfl
  | branch role kind children => exact fixedAll_eq_map children

mutual

theorem fullText_fixed (n : Node) : n.fixed.fullText = n.fullText := by
  cases n with
  | leaf => rfl
  | branch role kind children => exact fullTexts_fixedAll children

theorem fullTexts_fixedAll (nodes : List Node) : fullTexts (fixedAll nodes) = fullTexts nodes := by
  cases nodes with
  | nil => rfl
  | cons n rest =>
    rw [fixedAll, fullTexts, fullTexts, fullText_fixed n, fullTexts_fixedAll rest]

end

mutual

theorem opening?_fixed (n : Node) : n.fixed.opening?.map (·.1) = n.opening?.map (·.1) := by
  cases n with
  | leaf => rfl
  | branch role kind children => exact openings?_fixedAll children

theorem openings?_fixedAll (nodes : List Node) :
    (openings? (fixedAll nodes)).map (·.1) = (openings? nodes).map (·.1) := by
  cases nodes with
  | nil => rfl
  | cons n rest =>
    have hn := opening?_fixed n
    have hrest := openings?_fixedAll rest
    rw [fixedAll, openings?, openings?]
    cases hfixed : n.fixed.opening? <;> cases hopening : n.opening? <;> simp_all

end

@[simp] theorem text_fixed (n : Node) : n.fixed.text = n.text := by
  have hfixed := fullText_eq n.fixed
  rw [fullText_fixed, blanks, opening?_fixed, fullText_eq n] at hfixed
  exact (List.append_cancel_left hfixed).symm

@[simp] theorem string_fixed (n : Node) : n.fixed.string = n.string := by
  rw [string, string, text_fixed]

/-! ## Changes of the children -/

/-- A node with its children changed one by one. -/
def mapChildren (f : Node → Node) : Node → Node
  | leaf role kind _ _ text => leaf role kind [] .start text
  | branch role kind children => branch role kind (children.map f)

@[simp] theorem kind_mapChildren (f : Node → Node) (n : Node) :
    (n.mapChildren f).kind = n.kind := by
  cases n <;> rfl

@[simp] theorem children_mapChildren (f : Node → Node) (n : Node) :
    (n.mapChildren f).children = n.children.map f := by
  cases n <;> rfl

/-- Nodes that are changed are picked by a test that does not see the change. -/
theorem filter_map {f : Node → Node} {test : Node → Bool} (h : ∀ n, test (f n) = test n)
    (nodes : List Node) : (nodes.map f).filter test = (nodes.filter test).map f := by
  rw [List.filter_map, show test ∘ f = test from funext h]

theorem find?_map {f : Node → Node} {test : Node → Bool} (h : ∀ n, test (f n) = test n)
    (nodes : List Node) : (nodes.map f).find? test = (nodes.find? test).map f := by
  rw [List.find?_map, show test ∘ f = test from funext h]

theorem any_map {f : Node → Node} {test : Node → Bool} (h : ∀ n, test (f n) = test n)
    (nodes : List Node) : (nodes.map f).any test = nodes.any test := by
  rw [List.any_map, show test ∘ f = test from funext h]

/-- The last node of a kind is the changed one when the change keeps kinds. -/
theorem getLast?_filter_kind {f : Node → Node} (h : ∀ n, (f n).kind = n.kind) (kind : Kind)
    (nodes : List Node) :
    ((nodes.map f).filter (·.kind = kind)).getLast? =
      ((nodes.filter (·.kind = kind)).getLast?).map f := by
  rw [filter_map (fun n => by rw [h]), List.getLast?_map]

theorem kind_of_getLast?_filter {kind : Kind} {nodes : List Node} {n : Node}
    (h : (nodes.filter (·.kind = kind)).getLast? = some n) : n.kind = kind := by
  simpa using (List.mem_filter.1 (List.mem_of_getLast? h)).2

/-- A mark is the same when its kind and its text are. -/
theorem isMark_congr {m n : Node} (hkind : m.kind = n.kind)
    (hstring : n.kind = .mark → m.string = n.string) (mark : String) :
    m.isMark mark = n.isMark mark := by
  by_cases h : n.kind = .mark
  · rw [isMark, isMark, hkind, hstring h]
  · rw [isMark_eq_false h, isMark_eq_false (hkind ▸ h)]

end Syntax.Node

namespace Source

/-! ## Related lists -/

section

variable {α β γ : Type} {R : α → β → Prop}

/-- Related lists are the same under functions that do not tell related entries apart. -/
theorem map_eq_of_forall₂ {f : α → γ} {g : β → γ} (hfg : ∀ a b, R a b → f a = g b) {l : List α}
    {k : List β} (h : List.Forall₂ R l k) : l.map f = k.map g := by
  induction h with
  | nil => rfl
  | cons hab _ ih => rw [List.map_cons, List.map_cons, hfg _ _ hab, ih]

theorem forall₂_flatMap {f : γ → List α} {g : γ → List β} {list : List γ}
    (h : ∀ c ∈ list, List.Forall₂ R (f c) (g c)) :
    List.Forall₂ R (list.flatMap f) (list.flatMap g) := by
  induction list with
  | nil => exact .nil
  | cons c rest ih =>
    exact List.rel_append (h c List.mem_cons_self) (ih fun d hd => h d (List.mem_cons_of_mem c hd))

end

/-! ## Types without positions -/

theorem isMark_fixed (mark : String) (n : Node) : n.fixed.isMark mark = n.isMark mark :=
  Node.isMark_congr (Node.kind_fixed n) (fun _ => Node.string_fixed n) mark

theorem child?_fixedAll (role : Role) (nodes : List Node) :
    ((Node.fixedAll nodes).find? (·.role = role)).map (·.string) =
      (nodes.find? (·.role = role)).map (·.string) := by
  have hrole : ∀ n : Node, decide (n.fixed.role = role) = decide (n.role = role) := by simp
  rw [Node.fixedAll_eq_map, Node.find?_map hrole, Option.map_map]
  exact congrArg (fun read => (nodes.find? (·.role = role)).map read) (funext Node.string_fixed)

theorem argumentShapes_cons_of_role {n : Node} (h : n.role ≠ .typeArguments) (rest : List Node) :
    argumentShapes (n :: rest) = argumentShapes rest := by
  rw [argumentShapes_eq_map, argumentShapes_eq_map, argumentsIn_cons_of_role h]

mutual

theorem shapeOf_fixed (n : Node) : shapeOf n.fixed = shapeOf n := by
  cases n with
  | leaf => rfl
  | branch role kind children =>
    have hstring := Node.string_fixed (.branch role kind children)
    have hname : ((Node.branch role kind (Node.fixedAll children)).child? .name).map (·.string) =
        ((Node.branch role kind children).child? .name).map (·.string) :=
      child?_fixedAll .name children
    have harguments := argumentShapes_fixedAll children
    have hmembers := memberShapes_fixedAll children
    have hinner (marks : List String) := innerShape_fixedAll marks children
    rw [Node.fixed] at hstring ⊢
    rw [shapeOf.eq_def, shapeOf.eq_def (.branch role kind children)]
    dsimp only
    rw [hstring, hname, harguments, hmembers, hinner, hinner]

theorem innerShape_fixedAll (marks : List String) (nodes : List Node) :
    innerShape marks (Node.fixedAll nodes) = innerShape marks nodes := by
  cases nodes with
  | nil => rfl
  | cons n rest =>
    rw [Node.fixedAll, innerShape, innerShape, Node.kind_fixed, Node.string_fixed,
      innerShape_fixedAll marks rest, shapeOf_fixed n]

theorem memberShapes_fixedAll (nodes : List Node) :
    memberShapes (Node.fixedAll nodes) = memberShapes nodes := by
  cases nodes with
  | nil => rfl
  | cons n rest =>
    rw [Node.fixedAll, memberShapes, memberShapes, isMark_fixed, memberShapes_fixedAll rest,
      shapeOf_fixed n]

theorem namedShapes_fixedAll (nodes : List Node) :
    namedShapes (Node.fixedAll nodes) = namedShapes nodes := by
  cases nodes with
  | nil => rfl
  | cons n rest =>
    rw [Node.fixedAll, namedShapes, namedShapes, Node.isNamed, Node.kind_fixed,
      namedShapes_fixedAll rest, shapeOf_fixed n]
    rfl

theorem argumentShapes_fixedAll (nodes : List Node) :
    argumentShapes (Node.fixedAll nodes) = argumentShapes nodes := by
  cases nodes with
  | nil => rfl
  | cons n rest =>
    have hrest := argumentShapes_fixedAll rest
    cases n with
    | leaf => exact hrest
    | branch role kind children =>
      by_cases hrole : role = .typeArguments
      · subst hrole
        exact namedShapes_fixedAll children
      · rw [Node.fixedAll, argumentShapes_cons_of_role, argumentShapes_cons_of_role, hrest]
        · exact hrole
        · exact hrole

end

/-- A type clause without positions holds the same annotation. -/
theorem annotationOf_fixed (n : Node) : annotationOf n.fixed = annotationOf n := by
  have hmark (n : Node) : (!n.fixed.isMark ":") = !n.isMark ":" := by rw [isMark_fixed]
  have hannotation : (fun type : Node => (⟨type.string, shapeOf type⟩ : Annotation)) ∘ Node.fixed =
      fun type => ⟨type.string, shapeOf type⟩ := by
    funext type
    simp [shapeOf_fixed]
  rw [annotationOf, annotationOf, Node.children_fixed, Node.find?_map hmark, Option.map_map,
    hannotation]

/-! ## Fields -/

/-- The type clause of a field.  A comment between the colon and the type stays. -/
def settledClause : Node → Node
  | .leaf role kind _ _ text => .leaf role kind [] .start text
  | .branch role kind children => .branch role kind (settledInner [":"] children)

/-- A part of a field. -/
def settledFieldPart (n : Node) : Node :=
  match n.kind with
  | .decorator => settledDecorator n
  | .typeClause => settledClause n
  | .propertyName | .privateName | .mark => n.whole
  | _ => n.spelled

/-- A field without the layout that its reading passes over. -/
def settledField (n : Node) : Node := n.mapChildren settledFieldPart

/-- A field of a tree is read as the same when the tree is settled, up to the wording of its
type. -/
structure Field.Settles (tree : Node) (f g : Field) : Prop where
  outline : f.outline = g.outline
  type : ∀ a ∈ f.type, ∃ n, n.Within tree ∧ a = ⟨n.string, shapeOf n⟩ ∧
    ∀ b ∈ g.type, b.text = (settledType n).string

theorem kind_settledFieldPart (n : Node) : (settledFieldPart n).kind = n.kind := by
  unfold settledFieldPart
  split
  case h_2 => cases n <;> rfl
  all_goals simp

/-- Decorators among nodes are read as the same when they are settled. -/
theorem outlines_decoratorsIn_map {f : Node → Node} (hkind : ∀ n, (f n).kind = n.kind)
    (hdecorator : ∀ n, n.kind = .decorator → f n = settledDecorator n) (nodes : List Node) :
    (decoratorsIn (nodes.map f)).map (·.outline) = (decoratorsIn nodes).map (·.outline) := by
  have htest (n : Node) : decide ((f n).kind = .decorator) = decide (n.kind = .decorator) := by
    rw [hkind]
  rw [decoratorsIn, decoratorsIn, Node.filter_map htest, List.map_map, List.map_map, List.map_map]
  refine List.map_congr_left fun n hn => ?_
  have hn : n.kind = .decorator := by simpa using (List.mem_filter.1 hn).2
  show (readDecorator (f n)).outline = (readDecorator n).outline
  rw [hdecorator n hn, outline_readDecorator_settledDecorator]

theorem typeNode?_settledField (nodes : List Node) :
    typeNode? (nodes.map settledFieldPart) = (typeNode? nodes).map settledType := by
  have hinner (children : List Node) :
      (settledInner [":"] children).find? (!·.isMark ":") =
        (children.find? (!·.isMark ":")).map settledType := by
    have hsettled := find?_settledInner [":"] children
    simp only [isOneOf_singleton] at hsettled
    exact hsettled
  unfold typeNode?
  rw [Node.getLast?_filter_kind kind_settledFieldPart]
  cases hlast : (nodes.filter (·.kind = .typeClause)).getLast? with
  | none => rfl
  | some clause =>
    have hsettled : settledFieldPart clause = settledClause clause := by
      unfold settledFieldPart
      rw [Node.kind_of_getLast?_filter hlast]
    show (settledFieldPart clause).children.find? (!·.isMark ":") = _
    rw [hsettled]
    cases clause with
    | leaf => rfl
    | branch role kind children => exact hinner children

/-- The annotation of a field has the same outline when the field is settled. -/
theorem outline_annotationIn_settledField (nodes : List Node) :
    (annotationIn (nodes.map settledFieldPart)).map (·.outline) =
      (annotationIn nodes).map (·.outline) := by
  rw [annotationIn_eq_map, annotationIn_eq_map, typeNode?_settledField]
  cases typeNode? nodes with
  | none => rfl
  | some type =>
    exact congrArg (fun shape => some (⟨"", shape⟩ : Annotation)) (outline_shapeOf_settledType type)

theorem within_of_typeNode? {nodes : List Node} {type tree : Node} (h : typeNode? nodes = some type)
    (hnodes : ∀ n ∈ nodes, n.Within tree) : type.Within tree := by
  obtain ⟨clause, hclause, htype⟩ := Option.bind_eq_some_iff.1 h
  have hmem := (List.mem_filter.1 (List.mem_of_getLast? hclause)).1
  exact (Node.Within.of_mem_children .self (List.mem_of_find?_eq_some htype)).trans
    (hnodes clause hmem)

theorem settledFieldPart_of_text {n : Node}
    (h : n.kind = .propertyName ∨ n.kind = .privateName ∨ n.kind = .mark) :
    settledFieldPart n = n.whole := by
  unfold settledFieldPart
  rcases h with h | h | h <;> rw [h]

/-- A field is read as the same when it is settled. -/
theorem settles_readField {tree n : Node} (hn : n.Within tree) {pending settled : List Decorator}
    (hpending : pending.map (·.outline) = settled.map (·.outline)) :
    List.Forall₂ (Field.Settles tree) (readField pending n).toList
      (readField settled (settledField n)).toList := by
  have hname (n : Node) : (decide ((settledFieldPart n).kind = .propertyName) ||
      decide ((settledFieldPart n).kind = .privateName)) =
      (decide (n.kind = .propertyName) || decide (n.kind = .privateName)) := by
    rw [kind_settledFieldPart]
  have hstatic : hasWord "static" (n.children.map settledFieldPart) =
      hasWord "static" n.children := by
    refine Node.any_map (fun m => ?_) n.children
    refine Node.isMark_congr (kind_settledFieldPart m) (fun hmark => ?_) _
    rw [settledFieldPart_of_text (.inr (.inr hmark)), Node.string_whole]
  have hdecorators := outlines_decoratorsIn_map kind_settledFieldPart
    (fun m hm => by unfold settledFieldPart; rw [hm]) n.children
  unfold readField settledField
  rw [Node.children_mapChildren, Node.find?_map hname]
  cases hfind : n.children.find? fun c => c.kind = .propertyName || c.kind = .privateName with
  | none => exact .nil
  | some name =>
    have hkind : name.kind = .propertyName ∨ name.kind = .privateName := by
      simpa using List.find?_some hfind
    have hstring : (settledFieldPart name).string = name.string := by
      rcases hkind with hkind | hkind
      · rw [settledFieldPart_of_text (.inl hkind), Node.string_whole]
      · rw [settledFieldPart_of_text (.inr (.inl hkind)), Node.string_whole]
    have htype := outline_annotationIn_settledField n.children
    refine .cons ⟨?_, ?_⟩ .nil
    · unfold Field.outline
      dsimp only
      rw [hstring, htype, hstatic, List.map_append, List.map_append, hpending, hdecorators]
    · intro a ha
      obtain ⟨type, hnode, rfl⟩ := Option.map_eq_some_iff.1 ((annotationIn_eq_map _).symm.trans ha)
      have hwithin : ∀ child ∈ n.children, child.Within tree := fun child hchild =>
        (Node.Within.of_mem_children .self hchild).trans hn
      refine ⟨type, within_of_typeNode? hnode hwithin, rfl, fun b hb => ?_⟩
      have hb : annotationIn (n.children.map settledFieldPart) = some b := hb
      rw [annotationIn_eq_map, typeNode?_settledField, hnode] at hb
      obtain rfl := Option.some.inj hb
      rfl

/-! ## Methods -/

/-- A part of a parameter: its pattern and its type are read, and nothing else. -/
def settledParameterPart (n : Node) : Node :=
  if n.role = .pattern ∨ n.role = .type then n.fixed else n.spelled

/-- A part of a method. -/
def settledMethodPart (n : Node) : Node :=
  match n.kind with
  | .decorator => settledDecorator n
  | .parameters => n.mapChildren (·.mapChildren settledParameterPart)
  | .block => n.spelled
  | _ => n.fixed

/-- A method without the layout that its reading passes over. -/
def settledMethod (n : Node) : Node := n.mapChildren settledMethodPart

theorem role_settledParameterPart (n : Node) : (settledParameterPart n).role = n.role := by
  unfold settledParameterPart
  split <;> simp

theorem child?_settledParameter (role : Role) (n : Node) :
    (n.mapChildren settledParameterPart).child? role =
      (n.child? role).map settledParameterPart := by
  have htest (m : Node) :
      decide ((settledParameterPart m).role = role) = decide (m.role = role) := by
    rw [role_settledParameterPart]
  rw [Node.child?, Node.children_mapChildren, Node.find?_map htest]
  rfl

theorem settledParameterPart_of_child? {n child : Node} {role : Role}
    (h : n.child? role = some child) (hrole : role = .pattern ∨ role = .type) :
    settledParameterPart child = child.fixed := by
  have hchild : child.role = role := by simpa using List.find?_some h
  exact if_pos (hchild ▸ hrole)

/-- A parameter is read as the same when it is settled. -/
theorem outline_readParameter (n : Node) :
    (readParameter (n.mapChildren settledParameterPart)).map (·.outline) =
      (readParameter n).map (·.outline) := by
  unfold readParameter
  rw [child?_settledParameter, child?_settledParameter, child?_settledParameter,
    Node.kind_mapChildren]
  cases hpattern : n.child? .pattern with
  | none => rfl
  | some pattern =>
    have hfixed := settledParameterPart_of_child? hpattern (.inl rfl)
    have htype : ((n.child? .type).map settledParameterPart).bind annotationOf =
        (n.child? .type).bind annotationOf := by
      cases htype : n.child? .type with
      | none => rfl
      | some type =>
        have hfixed := settledParameterPart_of_child? htype (.inr rfl)
        show annotationOf (settledParameterPart type) = annotationOf type
        rw [hfixed, annotationOf_fixed]
    dsimp only [Option.map_some, Option.bind_some]
    rw [htype, hfixed, Node.text_fixed, Node.kind_fixed]
    split
    · rfl
    · cases n.child? .value <;> rfl

theorem kind_settledMethodPart (n : Node) : (settledMethodPart n).kind = n.kind := by
  unfold settledMethodPart
  split <;> simp

/-- What a method is read off, apart from its decorators, its parameters and its body. -/
theorem settledMethodPart_of_kind {n : Node}
    (h : n.kind ≠ .decorator ∧ n.kind ≠ .parameters ∧ n.kind ≠ .block) :
    settledMethodPart n = n.fixed := by
  unfold settledMethodPart
  split <;> simp_all

theorem outline_readParameters (n : Node) :
    (readParameters (n.mapChildren (·.mapChildren settledParameterPart))).map (·.outline) =
      (readParameters n).map (·.outline) := by
  have htest (m : Node) :
      (decide ((m.mapChildren settledParameterPart).kind = .requiredParameter) ||
        decide ((m.mapChildren settledParameterPart).kind = .optionalParameter)) =
      (decide (m.kind = .requiredParameter) || decide (m.kind = .optionalParameter)) := by
    rw [Node.kind_mapChildren]
  rw [readParameters, readParameters, Node.children_mapChildren, Node.filter_map htest,
    List.filterMap_map, List.map_filterMap, List.map_filterMap]
  exact List.filterMap_congr fun m _ => outline_readParameter m

section

variable (nodes : List Node)

theorem hasWord_settledMethod (word : String) :
    hasWord word (nodes.map settledMethodPart) = hasWord word nodes := by
  refine Node.any_map (fun n => ?_) nodes
  refine Node.isMark_congr (kind_settledMethodPart n) (fun hmark => ?_) word
  rw [settledMethodPart_of_kind (by simp [hmark]), Node.string_fixed]

theorem visibilityIn_settledMethod :
    visibilityIn (nodes.map settledMethodPart) = visibilityIn nodes := by
  unfold visibilityIn
  rw [Node.getLast?_filter_kind kind_settledMethodPart]
  cases hlast : (nodes.filter (·.kind = .accessibility)).getLast? with
  | none => rfl
  | some n =>
    have hkind := Node.kind_of_getLast?_filter hlast
    have hstring : (settledMethodPart n).string = n.string := by
      rw [settledMethodPart_of_kind (by simp [hkind]), Node.string_fixed]
    rw [Option.map_some, Option.map_some, Option.map_some, hstring]

theorem annotationIn_settledMethod :
    annotationIn (nodes.map settledMethodPart) = annotationIn nodes := by
  unfold annotationIn
  rw [Node.getLast?_filter_kind kind_settledMethodPart]
  cases hlast : (nodes.filter (·.kind = .typeClause)).getLast? with
  | none => rfl
  | some n =>
    have hkind := Node.kind_of_getLast?_filter hlast
    show annotationOf (settledMethodPart n) = annotationOf n
    rw [settledMethodPart_of_kind (by simp [hkind]), annotationOf_fixed]

theorem parameters_settledMethod :
    ((((nodes.map settledMethodPart).filter (·.kind = .parameters)).getLast?.map
      readParameters).getD []).map (·.outline) =
      (((nodes.filter (·.kind = .parameters)).getLast?.map readParameters).getD []).map
        (·.outline) := by
  rw [Node.getLast?_filter_kind kind_settledMethodPart]
  cases hlast : (nodes.filter (·.kind = .parameters)).getLast? with
  | none => rfl
  | some n =>
    have hsettled : settledMethodPart n =
        n.mapChildren (·.mapChildren settledParameterPart) := by
      unfold settledMethodPart
      rw [Node.kind_of_getLast?_filter hlast]
    show (readParameters (settledMethodPart n)).map (·.outline) = _
    rw [hsettled]
    exact outline_readParameters n

theorem names_settledMethod :
    (nodes.map settledMethodPart).filter isMethodName =
      (nodes.filter isMethodName).map settledMethodPart := by
  refine Node.filter_map (fun n => ?_) nodes
  simp only [isMethodName, isKeyName, kind_settledMethodPart]

end

/-- A method is read as the same when it is settled. -/
theorem outline_readMethod {n : Node} {pending settled : List Decorator}
    (hpending : pending.map (·.outline) = settled.map (·.outline)) :
    (readMethod settled (settledMethod n)).map (·.outline) =
      (readMethod pending n).map (·.outline) := by
  have hdecorators := outlines_decoratorsIn_map kind_settledMethodPart
    (fun m hm => by unfold settledMethodPart; rw [hm]) n.children
  have hparameters := parameters_settledMethod n.children
  have hbody : (n.children.map settledMethodPart).any (·.kind = .block) =
      n.children.any (·.kind = .block) :=
    Node.any_map (fun m => by rw [kind_settledMethodPart]) _
  have hkeyed (names : List Node) : (names.map settledMethodPart).any isKeyName =
      names.any isKeyName :=
    Node.any_map (fun m => by simp only [isKeyName, kind_settledMethodPart]) _
  have hprivate (names : List Node) : (names.map settledMethodPart).any (·.kind = .privateName) =
      names.any (·.kind = .privateName) :=
    Node.any_map (fun m => by rw [kind_settledMethodPart]) _
  unfold readMethod settledMethod
  rw [Node.children_mapChildren, Node.kind_mapChildren]
  dsimp only
  rw [names_settledMethod, List.getLast?_map]
  cases hlast : (n.children.filter isMethodName).getLast? with
  | none => rfl
  | some last =>
    have hname : isMethodName last = true := (List.mem_filter.1 (List.mem_of_getLast? hlast)).2
    have hstring : (settledMethodPart last).string = last.string := by
      rw [settledMethodPart_of_kind, Node.string_fixed]
      simp only [isMethodName, isKeyName, Bool.or_eq_true, decide_eq_true_eq] at hname
      grind
    unfold Method.outline
    simp only [Option.map_some, hstring, hkeyed, hprivate, hbody, hparameters, methodKind,
      hasWord_settledMethod, visibilityIn_settledMethod, annotationIn_settledMethod,
      List.map_append, hdecorators, hpending]

end Source

end DaoGen
