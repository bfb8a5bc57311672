import DaoGen.Proofs.Program.Options
import DaoGen.Proofs.Source.TypeNames
set_option autoImplicit false

/-!
# Where the values of options come from

The arguments of a decorator are forms of nodes of its file's tree.  A form that is an object or a
string is that of an object literal or a string literal, which may stand in parentheses or under a
type (`Source.exists_object_of_formOf`, `Source.exists_literal_of_formOf`).  The decorators themselves
are those of nodes of the tree (`Source.exists_readDecorator_of_mem_classes`), so a string among the
options of a helper comes from a literal there.
-/

namespace DaoGen

open DaoGen.Syntax (Node Kind Role)

namespace Syntax.Node

theorem Within.trans {m n tree : Node} (h : m.Within n) (hn : n.Within tree) : m.Within tree := by
  induction hn with
  | self => exact h
  | inside hchild _ ih => exact .inside hchild ih

/-- A string literal: one between quotes, or a template. -/
def IsLiteral (n : Node) : Prop := n.kind = .string ∨ n.kind = .template

end Syntax.Node

namespace Source

/-! ## Forms of literals -/

theorem innerForm_eq_map_find? (nodes : List Node) :
    innerForm nodes = (nodes.find? (·.isNamed)).map formOf := by
  induction nodes with
  | nil => rfl
  | cons n rest ih =>
    rw [innerForm, List.find?_cons]
    cases hnamed : n.isNamed with
    | true => rfl
    | false => exact ih

/-- The kinds whose form is that of the node inside of them. -/
def IsWrapper (kind : Kind) : Prop :=
  kind = .parenthesized ∨ kind = .asExpression ∨ kind = .satisfies

theorem formOf_of_isWrapper (role : Role) {kind : Kind} (children : List Node)
    (hkind : IsWrapper kind) :
    (∃ inner ∈ children, formOf (.branch role kind children) = formOf inner) ∨
      formOf (.branch role kind children) =
        .other (Node.branch role kind children).span (Node.branch role kind children).string := by
  have hinner : formOf (.branch role kind children) =
      (innerForm children).getD
        (.other (Node.branch role kind children).span (Node.branch role kind children).string) := by
    rcases hkind with rfl | rfl | rfl <;> rw [formOf]
  rw [hinner, innerForm_eq_map_find?]
  cases hfind : children.find? (·.isNamed) with
  | none => exact .inr rfl
  | some inner => exact .inl ⟨inner, List.mem_of_find?_eq_some hfind, rfl⟩

/-- Every form is that of a node that is no wrapper, or of no use. -/
theorem exists_unwrapped (n : Node) : ∃ m, m.Within n ∧ formOf m = formOf n ∧
    (formOf m = .other m.span m.string ∨ ¬ IsWrapper m.kind) := by
  by_cases hwrapper : IsWrapper n.kind
  · cases n with
    | leaf role kind before start text =>
      refine ⟨_, .self, rfl, .inl ?_⟩
      rw [Node.string, Node.text_leaf]
      rcases hwrapper with hkind | hkind | hkind <;>
        · obtain rfl : kind = _ := hkind
          rfl
    | branch role kind children =>
      rcases formOf_of_isWrapper role children hwrapper with
        ⟨inner, hinner, hform⟩ | hother
      · obtain ⟨m, hwithin, hsame, hm⟩ := exists_unwrapped inner
        exact ⟨m, .inside hinner hwithin, hsame.trans hform.symm, hm⟩
      · exact ⟨_, .self, rfl, .inl hother⟩
  · exact ⟨n, .self, rfl, .inr hwrapper⟩
termination_by n
decreasing_by exact Node.sizeOf_lt_of_mem_children hinner

/-- Whether a form is a string or an object. -/
def isStringOrObject : Expr → Bool
  | .string .. | .object .. => true
  | _ => false

/-- The forms of nodes that are no wrappers: a string literal gives a string, an object literal an
object, and no other node gives one of these. -/
theorem formOf_cases {m : Node} (hwrapper : ¬ IsWrapper m.kind) :
    (m.IsLiteral ∧ formOf m = .string m.span (String.ofList (unquoted m.text))) ∨
      (∃ role children, m = .branch role .object children ∧
        formOf m = .object m.span (properties children)) ∨
      isStringOrObject (formOf m) = false := by
  cases m with
  | leaf role kind before start text =>
    rw [Node.text_leaf]
    unfold formOf leafForm
    split
    case h_2 => exact .inl ⟨.inl rfl, rfl⟩
    case h_3 => split <;> exact .inr (.inr rfl)
    all_goals exact .inr (.inr rfl)
  | branch role kind children =>
    unfold formOf
    split
    case h_1 => exact .inl ⟨.inl rfl, rfl⟩
    case h_2 => exact .inl ⟨.inr rfl, rfl⟩
    case h_4 => exact .inr (.inl ⟨role, children, rfl, rfl⟩)
    case h_8 => exact absurd (.inl rfl) hwrapper
    case h_9 => exact absurd (.inr (.inl rfl)) hwrapper
    case h_10 => exact absurd (.inr (.inr rfl)) hwrapper
    case h_5 | h_6 | h_7 => split <;> exact .inr (.inr rfl)
    all_goals exact .inr (.inr rfl)

/-- The form of a node is a string when a string literal stands there. -/
theorem exists_literal_of_formOf {n : Node} {span : Text.Span} {value : String}
    (h : formOf n = .string span value) :
    ∃ m : Node, m.Within n ∧ m.IsLiteral ∧ span = m.span ∧
      value = String.ofList (unquoted m.text) := by
  obtain ⟨m, hwithin, hsame, hother | hwrapper⟩ := exists_unwrapped n
  · rw [h, hother] at hsame
    cases hsame
  rw [h] at hsame
  rcases formOf_cases hwrapper with ⟨hliteral, hform⟩ | ⟨role, children, rfl, hform⟩ | hno
  · rw [hform] at hsame
    cases hsame
    exact ⟨m, hwithin, hliteral, rfl, rfl⟩
  · rw [hform] at hsame
    cases hsame
  · rw [hsame] at hno
    cases hno

/-- The form of a node is an object when an object literal stands there. -/
theorem exists_object_of_formOf {n : Node} {span : Text.Span} {members : List (String × Expr)}
    (h : formOf n = .object span members) :
    ∃ role children, (Node.branch role .object children).Within n ∧
      members = children.filterMap memberOf? := by
  obtain ⟨m, hwithin, hsame, hother | hwrapper⟩ := exists_unwrapped n
  · rw [h, hother] at hsame
    cases hsame
  rw [h] at hsame
  rcases formOf_cases hwrapper with ⟨-, hform⟩ | ⟨role, children, rfl, hform⟩ | hno
  · rw [hform] at hsame
    cases hsame
  · rw [hform] at hsame
    cases hsame
    exact ⟨role, children, hwithin, properties_eq_filterMap children⟩
  · rw [hsame] at hno
    cases hno

/-- The value of a member of an object literal is its own name or the form of a node. -/
theorem exists_formOf_of_memberOf? {child : Node} {key : String} {value : Expr}
    (h : memberOf? child = some (key, value)) :
    (∃ text, value = .name child.span text) ∨ ∃ n, n.Within child ∧ value = formOf n := by
  unfold memberOf? at h
  split at h
  · cases h
    exact .inl ⟨_, rfl⟩
  · rename_i role children
    split at h
    · rename_i hvalue
      cases h
      rw [roleForm_eq_map_find?] at hvalue
      obtain ⟨n, hn, rfl⟩ := Option.map_eq_some_iff.1 hvalue
      exact .inr ⟨n, .inside (List.mem_of_find?_eq_some hn) .self, rfl⟩
    · cases h
  · cases h

/-! ## Arguments of decorators -/

theorem mem_forms {nodes : List Node} {e : Expr} (h : e ∈ forms nodes) :
    ∃ n ∈ nodes, e = formOf n := by
  induction nodes with
  | nil => cases h
  | cons n rest ih =>
    rw [forms] at h
    split at h
    · rcases List.mem_cons.1 h with rfl | h
      · exact ⟨n, List.mem_cons_self, rfl⟩
      · obtain ⟨m, hm, rfl⟩ := ih h
        exact ⟨m, List.mem_cons_of_mem n hm, rfl⟩
    · obtain ⟨m, hm, rfl⟩ := ih h
      exact ⟨m, List.mem_cons_of_mem n hm, rfl⟩

theorem mem_argumentForms {nodes : List Node} {e : Expr} (h : e ∈ argumentForms nodes) :
    ∃ child ∈ nodes, ∃ n, n.Within child ∧ e = formOf n := by
  induction nodes with
  | nil => cases h
  | cons node rest ih =>
    unfold argumentForms at h
    split at h
    · cases ‹_ = _›
    · rename_i heq
      cases heq
      obtain ⟨n, hn, rfl⟩ := mem_forms h
      exact ⟨_, List.mem_cons_self, n, .inside hn .self, rfl⟩
    · rename_i heq
      cases heq
      obtain ⟨child, hchild, hform⟩ := ih h
      exact ⟨child, List.mem_cons_of_mem _ hchild, hform⟩

/-- An argument of a decorator is the form of a node in the decorator. -/
theorem exists_formOf_of_mem_arguments {n : Node} {e : Expr}
    (h : e ∈ (readDecorator n).arguments) : ∃ m, m.Within n ∧ e = formOf m := by
  have hfold : ∀ (nodes : List Node) (found : List Expr),
      e ∈ nodes.foldl (fun found child =>
        if child.kind = .call then argumentForms child.children else found) found →
      e ∈ found ∨ ∃ child ∈ nodes, e ∈ argumentForms child.children := by
    intro nodes
    induction nodes with
    | nil => exact fun found h => .inl h
    | cons child rest ih =>
      intro found h
      rw [List.foldl_cons] at h
      rcases ih _ h with h | ⟨other, hother, h⟩
      · split at h
        · exact .inr ⟨child, List.mem_cons_self, h⟩
        · exact .inl h
      · exact .inr ⟨other, List.mem_cons_of_mem child hother, h⟩
  rcases hfold n.children [] h with h | ⟨call, hcall, h⟩
  · cases h
  · obtain ⟨child, hchild, m, hwithin, rfl⟩ := mem_argumentForms h
    exact ⟨m, (hwithin.of_mem_children hchild).of_mem_children hcall, rfl⟩

theorem exists_of_mem_decoratorsIn {nodes : List Node} {d : Decorator}
    (h : d ∈ decoratorsIn nodes) : ∃ n ∈ nodes, d = readDecorator n := by
  obtain ⟨n, hn, rfl⟩ := List.mem_map.1 h
  exact ⟨n, (List.mem_filter.1 hn).1, rfl⟩

/-- The decorators of the classes of a file are read off nodes of the file's tree. -/
theorem exists_readDecorator_of_mem_classes {path : Path} {text : String} {tree : Node}
    {c : SourceClass} (hc : c ∈ (ofTree path text tree).classes) {d : Decorator}
    (hd : d ∈ c.decorators) : ∃ n, n.Within tree ∧ d = readDecorator n := by
  have hclass : ∀ {exported pending n}, readClass exported pending n = some c →
      d ∈ pending ∨ ∃ m, m.Within n ∧ d = readDecorator m := by
    intro exported pending n hread
    obtain ⟨name, -, rfl⟩ := Option.map_eq_some_iff.1 hread
    rcases List.mem_append.1 hd with hd | hd
    · exact .inl hd
    · obtain ⟨m, hm, rfl⟩ := exists_of_mem_decoratorsIn hd
      exact .inr ⟨m, Node.Within.of_mem_children .self hm, rfl⟩
  obtain ⟨statement, hstatement, hc⟩ := List.mem_flatMap.1 hc
  unfold classesOf at hc
  split at hc
  · rcases hclass (Option.mem_toList.1 hc) with hpending | ⟨m, hm, rfl⟩
    · cases hpending
    · exact ⟨m, hm.of_mem_children hstatement, rfl⟩
  · split at hc
    · obtain ⟨child, hchild, hc⟩ := List.mem_filterMap.1 hc
      have hwithin : child.Within statement :=
        Node.Within.of_mem_children .self (List.mem_filter.1 hchild).1
      rcases hclass hc with hpending | ⟨m, hm, rfl⟩
      · obtain ⟨m, hm, rfl⟩ := exists_of_mem_decoratorsIn hpending
        have hm : m.Within statement := .of_mem_children .self hm
        exact ⟨m, hm.of_mem_children hstatement, rfl⟩
      · exact ⟨m, (hm.trans hwithin).of_mem_children hstatement, rfl⟩
    · cases hc

end Source

end DaoGen
