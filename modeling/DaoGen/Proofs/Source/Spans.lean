import DaoGen.Proofs.Source.Literals
set_option autoImplicit false

/-!
# Where the parts of a source file stand

What is read off the tree of a file keeps the span of a node: a class, a method, a parameter and a
decorator that of its own node, an expression that of the node that it is the form of
(`Source.spans_formOf`).  So do the values and elements of the objects and arrays among the
arguments of a decorator (`Source.spans_of_part`), and all classes of a file
(`Source.spanned_of_mem_classes`).
-/

namespace DaoGen

open DaoGen.Syntax (Node Kind Role)

/-- Some node of a tree stands at a span. -/
def Syntax.Node.Spans (tree : Node) (span : Text.Span) : Prop :=
  ∃ n : Node, n.Within tree ∧ n.span = span

theorem Syntax.Node.Spans.of_within {n tree : Node} {span : Text.Span} (h : n.Spans span)
    (hn : n.Within tree) : tree.Spans span := by
  obtain ⟨m, hm, hspan⟩ := h
  exact ⟨m, hm.trans hn, hspan⟩

namespace Source

/-! ## Parts of expressions -/

/-- An expression is a value or an element in the objects and arrays of another, or that other. -/
inductive Expr.Part (x : Expr) : Expr → Prop where
  | self : Part x x
  | element {span : Text.Span} {elements : List Expr} {e : Expr} (he : e ∈ elements)
      (h : Part x e) : Part x (.array span elements)
  | value {span : Text.Span} {members : List (String × Expr)} {key : String} {e : Expr}
      (he : (key, e) ∈ members) (h : Part x e) : Part x (.object span members)

/-- A decorator and the parts of its arguments stand at some spans. -/
structure Decorator.Spanned (S : Text.Span → Prop) (d : Decorator) : Prop where
  span : S d.span
  arguments : ∀ a ∈ d.arguments, ∀ x : Expr, x.Part a → S x.span

/-- A method, its parameters and its decorators stand at some spans. -/
structure Method.Spanned (S : Text.Span → Prop) (m : Method) : Prop where
  span : S m.span
  parameters : ∀ parameter ∈ m.parameters, S parameter.span
  decorators : ∀ d ∈ m.decorators, d.Spanned S

/-- A class, its decorators and its methods stand at some spans. -/
structure SourceClass.Spanned (S : Text.Span → Prop) (c : SourceClass) : Prop where
  span : S c.span
  decorators : ∀ d ∈ c.decorators, d.Spanned S
  methods : ∀ m ∈ c.methods, m.Spanned S

/-! ## Forms of nodes -/

theorem span_leafForm (kind : Kind) (span : Text.Span) (text : List Char) :
    (leafForm kind span text).span = span := by
  unfold leafForm
  split
  case h_3 => split <;> rfl
  all_goals rfl

/-- The form of a node that is no wrapper has the node's own span. -/
theorem span_formOf_of_not_isWrapper {m : Node} (hwrapper : ¬ IsWrapper m.kind) :
    (formOf m).span = m.span := by
  cases m with
  | leaf role kind before start text =>
    rw [formOf]
    exact span_leafForm _ _ _
  | branch role kind children =>
    unfold formOf
    split
    case h_8 => exact absurd (.inl rfl) hwrapper
    case h_9 => exact absurd (.inr (.inl rfl)) hwrapper
    case h_10 => exact absurd (.inr (.inr rfl)) hwrapper
    case h_5 | h_6 | h_7 => split <;> rfl
    all_goals rfl

theorem array_of_formOf {m : Node} (hwrapper : ¬ IsWrapper m.kind) {span : Text.Span}
    {elements : List Expr} (h : formOf m = .array span elements) :
    ∃ role children, m = .branch role .array children ∧ elements = forms children := by
  cases m with
  | leaf role kind before start text =>
    unfold formOf leafForm at h
    split at h
    case h_3 => split at h <;> cases h
    all_goals cases h
  | branch role kind children =>
    unfold formOf at h
    split at h
    case h_3 =>
      cases h
      exact ⟨role, children, rfl, rfl⟩
    case h_8 => exact absurd (.inl rfl) hwrapper
    case h_9 => exact absurd (.inr (.inl rfl)) hwrapper
    case h_10 => exact absurd (.inr (.inr rfl)) hwrapper
    case h_5 | h_6 | h_7 => split at h <;> cases h
    all_goals cases h

/-- The form of a node has the span of a node in it. -/
theorem spans_formOf (n : Node) : n.Spans (formOf n).span := by
  obtain ⟨m, hwithin, hsame, hother | hwrapper⟩ := exists_unwrapped n
  · refine ⟨m, hwithin, ?_⟩
    rw [← hsame, hother]
    rfl
  · refine ⟨m, hwithin, ?_⟩
    rw [← hsame, span_formOf_of_not_isWrapper hwrapper]

/-- The elements of an array are forms of nodes. -/
theorem exists_formOf_of_mem_elements {n : Node} {span : Text.Span} {elements : List Expr}
    (h : formOf n = .array span elements) {e : Expr} (he : e ∈ elements) :
    ∃ m, m.Within n ∧ e = formOf m := by
  obtain ⟨m, hwithin, hsame, hother | hwrapper⟩ := exists_unwrapped n
  · rw [h, hother] at hsame
    cases hsame
  · obtain ⟨role, children, rfl, rfl⟩ := array_of_formOf hwrapper (hsame.trans h)
    obtain ⟨child, hchild, rfl⟩ := mem_forms he
    exact ⟨child, .trans (.inside hchild .self) hwithin, rfl⟩

/-- The values of an object are forms of nodes, or the names of shorthands. -/
theorem exists_formOf_of_mem_members {n : Node} {span : Text.Span}
    {members : List (String × Expr)} (h : formOf n = .object span members) {key : String}
    {e : Expr} (he : (key, e) ∈ members) :
    (∃ (m : Node) (text : String), m.Within n ∧ e = .name m.span text) ∨
      ∃ m, m.Within n ∧ e = formOf m := by
  obtain ⟨role, children, hwithin, rfl⟩ := exists_object_of_formOf h
  obtain ⟨child, hchild, hmember⟩ := List.mem_filterMap.1 he
  have hchildWithin : child.Within n := .trans (.inside hchild .self) hwithin
  rcases exists_formOf_of_memberOf? hmember with ⟨text, rfl⟩ | ⟨m, hm, rfl⟩
  · exact .inl ⟨child, text, hchildWithin, rfl⟩
  · exact .inr ⟨m, hm.trans hchildWithin, rfl⟩

/-- A part of the form of a node has the span of a node in it. -/
theorem spans_of_part {x e : Expr} (h : x.Part e) {n : Node} (he : e = formOf n) :
    n.Spans x.span := by
  induction h generalizing n with
  | self =>
    rw [he]
    exact spans_formOf n
  | element hmem hpart ih =>
    obtain ⟨m, hm, hform⟩ := exists_formOf_of_mem_elements he.symm hmem
    exact (ih hform).of_within hm
  | value hmem hpart ih =>
    rcases exists_formOf_of_mem_members he.symm hmem with ⟨m, text, hm, rfl⟩ | ⟨m, hm, hform⟩
    · -- a shorthand has no parts but itself
      cases hpart
      exact ⟨m, hm, rfl⟩
    · exact (ih hform).of_within hm

/-! ## Parts of classes -/

theorem Decorator.Spanned.imp {S T : Text.Span → Prop} (hST : ∀ span, S span → T span)
    {d : Decorator} (h : d.Spanned S) : d.Spanned T :=
  ⟨hST _ h.span, fun a ha x hx => hST _ (h.arguments a ha x hx)⟩

theorem spanned_readDecorator (n : Node) : (readDecorator n).Spanned n.Spans := by
  refine ⟨⟨n, .self, rfl⟩, fun a ha x hx => ?_⟩
  obtain ⟨m, hm, hform⟩ := exists_formOf_of_mem_arguments ha
  exact (spans_of_part hx hform).of_within hm

theorem spanned_of_mem_decoratorsIn {nodes : List Node} {tree : Node}
    (hnodes : ∀ n ∈ nodes, n.Within tree) :
    ∀ d ∈ decoratorsIn nodes, d.Spanned tree.Spans := by
  intro d hd
  obtain ⟨n, hn, rfl⟩ := exists_of_mem_decoratorsIn hd
  exact (spanned_readDecorator n).imp fun span h => h.of_within (hnodes n hn)

theorem span_of_readParameter {n : Node} {parameter : Parameter}
    (h : readParameter n = some parameter) : parameter.span = n.span := by
  obtain ⟨pattern, -, h⟩ := Option.bind_eq_some_iff.1 h
  dsimp only at h
  split at h
  · cases h
  · cases h
    rfl

/-- A method stands at its node, with the decorators in front of it. -/
theorem spanned_readMethod {pending : List Decorator} {n tree : Node} {m : Method}
    (h : readMethod pending n = some m) (hn : n.Within tree)
    (hpending : ∀ d ∈ pending, d.Spanned tree.Spans) : m.Spanned tree.Spans := by
  obtain ⟨name, -, rfl⟩ := Option.map_eq_some_iff.1 h
  have hchildren : ∀ child ∈ n.children, child.Within tree := fun child hchild =>
    .trans (.of_mem_children .self hchild) hn
  refine ⟨⟨n, hn, rfl⟩, fun parameter hparameter => ?_, fun d hd => ?_⟩
  · dsimp only at hparameter
    cases hlist : (n.children.filter (·.kind = .parameters)).getLast? with
    | none =>
      rw [hlist] at hparameter
      cases hparameter
    | some list =>
      rw [hlist] at hparameter
      obtain ⟨child, hchild, hread⟩ := List.mem_filterMap.1 hparameter
      have hlistWithin : list.Within tree :=
        hchildren list (List.mem_filter.1 (List.mem_of_getLast? hlist)).1
      have hchildWithin : child.Within list :=
        .of_mem_children .self (List.mem_filter.1 hchild).1
      exact ⟨child, hchildWithin.trans hlistWithin, (span_of_readParameter hread).symm⟩
  · rcases List.mem_append.1 hd with hd | hd
    · exact hpending d hd
    · exact spanned_of_mem_decoratorsIn hchildren d hd

/-- The methods that were read and the decorators that wait for the next one stand in a tree. -/
structure Members.Spanned (tree : Node) (m : Members) : Prop where
  methods : ∀ method ∈ m.methods, method.Spanned tree.Spans
  pending : ∀ d ∈ m.pending, d.Spanned tree.Spans

theorem Members.Spanned.add {tree n : Node} {m : Members} (h : m.Spanned tree)
    (hn : n.Within tree) : (m.add n).Spanned tree := by
  have hmethod : ∀ method ∈ m.methods ++ (readMethod m.pending n).toList,
      method.Spanned tree.Spans := by
    intro method hmethod
    rcases List.mem_append.1 hmethod with hmethod | hmethod
    · exact h.methods method hmethod
    · exact spanned_readMethod (Option.mem_toList.1 hmethod) hn h.pending
  unfold Members.add
  split
  · refine ⟨h.methods, fun d hd => ?_⟩
    rcases List.mem_append.1 hd with hd | hd
    · exact h.pending d hd
    · rw [List.mem_singleton.1 hd]
      exact (spanned_readDecorator n).imp fun span hspan => hspan.of_within hn
  · exact ⟨h.methods, List.forall_mem_nil _⟩
  · exact ⟨hmethod, List.forall_mem_nil _⟩
  · exact ⟨hmethod, List.forall_mem_nil _⟩
  · exact ⟨hmethod, List.forall_mem_nil _⟩
  · exact h

/-- A class stands at its node, with the decorators in front of it. -/
theorem spanned_readClass {exported : Bool} {pending : List Decorator} {n tree : Node}
    {c : SourceClass} (h : readClass exported pending n = some c) (hn : n.Within tree)
    (hpending : ∀ d ∈ pending, d.Spanned tree.Spans) : c.Spanned tree.Spans := by
  obtain ⟨name, -, rfl⟩ := Option.map_eq_some_iff.1 h
  have hchildren : ∀ child ∈ n.children, child.Within tree := fun child hchild =>
    .trans (.of_mem_children .self hchild) hn
  refine ⟨⟨n, hn, rfl⟩, fun d hd => ?_, fun method hmethod => ?_⟩
  · rcases List.mem_append.1 hd with hd | hd
    · exact hpending d hd
    · exact spanned_of_mem_decoratorsIn hchildren d hd
  · dsimp only at hmethod
    cases hbody : (n.children.filter (·.kind = .classBody)).getLast? with
    | none =>
      rw [hbody] at hmethod
      cases hmethod
    | some body =>
      rw [hbody] at hmethod
      have hbodyWithin : body.Within tree :=
        hchildren body (List.mem_filter.1 (List.mem_of_getLast? hbody)).1
      have hmembers : (readBody body).Spanned tree :=
        List.foldlRecOn _ _ ⟨List.forall_mem_nil _, List.forall_mem_nil _⟩
          fun m hm child hchild => hm.add (.trans (.of_mem_children .self hchild) hbodyWithin)
      exact hmembers.methods method hmethod

/-- The classes of a file stand in the file's tree. -/
theorem spanned_of_mem_classes {path : Path} {text : String} {tree : Node} {c : SourceClass}
    (hc : c ∈ (ofTree path text tree).classes) : c.Spanned tree.Spans := by
  obtain ⟨statement, hstatement, hc⟩ := List.mem_flatMap.1 hc
  have hwithin : statement.Within tree := .of_mem_children .self hstatement
  unfold classesOf at hc
  split at hc
  · exact spanned_readClass (Option.mem_toList.1 hc) hwithin (List.forall_mem_nil _)
  · split at hc
    · obtain ⟨child, hchild, hc⟩ := List.mem_filterMap.1 hc
      have hchildren : ∀ n ∈ statement.children, n.Within tree := fun n hn =>
        .trans (.of_mem_children .self hn) hwithin
      exact spanned_readClass hc (hchildren child (List.mem_filter.1 hchild).1)
        (spanned_of_mem_decoratorsIn hchildren)
    · cases hc

end Source

end DaoGen
