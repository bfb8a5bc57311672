import DaoGen.Proofs.Source.TypeNames
set_option autoImplicit false

/-!
# Texts inside of texts

The text of a node is what it covers without the blanks before it, so it holds the text of every
node that stands in it (`Node.Within.isInfix_text`).  A name at an open place of a type is a part of
the text of the type (`Source.Open.infix`).
-/

namespace DaoGen

open DaoGen.Syntax (Node)

namespace Syntax.Node

/-- The blanks before a node. -/
def blanks (n : Node) : List Char := (n.opening?.map (·.1)).getD []

mutual

theorem fullText_of_opening?_none (n : Node) (h : n.opening? = none) : n.fullText = [] := by
  cases n with
  | leaf => cases h
  | branch role kind children =>
    rw [opening?] at h
    rw [fullText]
    exact fullTexts_of_openings?_none children h

theorem fullTexts_of_openings?_none (nodes : List Node) (h : openings? nodes = none) :
    fullTexts nodes = [] := by
  cases nodes with
  | nil => rfl
  | cons node rest =>
    rw [openings?] at h
    split at h
    · cases h
    · rename_i hnode
      rw [fullTexts, fullText_of_opening?_none node hnode, fullTexts_of_openings?_none rest h]
      rfl

end

mutual

theorem prefix_of_opening? {before : List Char} {start : Text.Position} (n : Node)
    (h : n.opening? = some (before, start)) : before <+: n.fullText := by
  cases n with
  | leaf role kind blanks place text =>
    obtain ⟨rfl, rfl⟩ := Prod.mk.inj (Option.some.inj h)
    exact List.prefix_append _ _
  | branch role kind children =>
    rw [opening?] at h
    rw [fullText]
    exact prefix_of_openings? children h

theorem prefix_of_openings? {before : List Char} {start : Text.Position} (nodes : List Node)
    (h : openings? nodes = some (before, start)) : before <+: fullTexts nodes := by
  cases nodes with
  | nil => cases h
  | cons node rest =>
    rw [openings?] at h
    rw [fullTexts]
    split at h
    · rename_i found hnode
      obtain rfl := Option.some.inj h
      exact (prefix_of_opening? node hnode).trans (List.prefix_append _ _)
    · rename_i hnode
      rw [fullText_of_opening?_none node hnode, List.nil_append]
      exact prefix_of_openings? rest h

end

/-- A node covers the blanks before it and its text. -/
theorem fullText_eq (n : Node) : n.fullText = n.blanks ++ n.text := by
  unfold blanks text
  cases hopening : n.opening? with
  | none => rw [fullText_of_opening?_none n hopening]; rfl
  | some found => exact (List.prefix_iff_eq_append.1 (prefix_of_opening? n hopening)).symm

theorem fullTexts_append (nodes more : List Node) :
    fullTexts (nodes ++ more) = fullTexts nodes ++ fullTexts more := by
  induction nodes with
  | nil => rfl
  | cons node rest ih => rw [List.cons_append, fullTexts, fullTexts, ih, List.append_assoc]

theorem openings?_append (nodes more : List Node) :
    openings? (nodes ++ more) = (openings? nodes).or (openings? more) := by
  induction nodes with
  | nil => rfl
  | cons node rest ih =>
    rw [List.cons_append, openings?, openings?, ih]
    split <;> rfl

/-- The text of a node holds that of each of its children. -/
theorem text_infix_of_mem_children {child n : Node} (h : child ∈ n.children) :
    child.text <:+: n.text := by
  cases n with
  | leaf => cases h
  | branch role kind children =>
    obtain ⟨left, right, rfl⟩ := List.append_of_mem h
    have hfull : (branch role kind (left ++ child :: right)).fullText =
        fullTexts left ++ (child.fullText ++ fullTexts right) := by
      rw [fullText, fullTexts_append, fullTexts]
    have hopening : (branch role kind (left ++ child :: right)).opening? =
        (openings? left).or (child.opening?.or (openings? right)) := by
      rw [opening?, openings?_append, openings?]
      cases child.opening? <;> rfl
    have htext := fullText_eq (branch role kind (left ++ child :: right))
    rw [hfull, blanks, hopening] at htext
    cases hleft : openings? left with
    | some found =>
      -- the blanks stand before a node on the left
      obtain ⟨rest, hrest⟩ := prefix_of_openings? left hleft
      rw [hleft, Option.some_or, Option.map_some, Option.getD_some, ← hrest,
        List.append_assoc] at htext
      rw [← List.append_cancel_left htext, fullText_eq child]
      exact ⟨rest ++ child.blanks, fullTexts right, by simp only [List.append_assoc]⟩
    | none =>
      rw [hleft, Option.none_or, fullTexts_of_openings?_none left hleft, List.nil_append] at htext
      cases hchild : child.opening? with
      | some found =>
        have hblanks : child.blanks = found.1 := by rw [blanks, hchild]; rfl
        rw [hchild, Option.some_or, Option.map_some, Option.getD_some, fullText_eq child, hblanks,
          List.append_assoc] at htext
        rw [← List.append_cancel_left htext]
        exact (List.prefix_append _ _).isInfix
      | none =>
        rw [show child.text = [] by rw [text, hchild]]
        exact List.nil_infix

/-- The text of a node holds that of every node that stands in it. -/
theorem Within.isInfix_text {m n : Node} (h : m.Within n) : m.text <:+: n.text := by
  induction h with
  | self => exact List.infix_rfl
  | inside hchild _ ih => exact ih.trans (text_infix_of_mem_children hchild)

end Syntax.Node

namespace Source

theorem within_of_mem_typeParts {part n : Node} (h : part ∈ typeParts n) : part.Within n := by
  cases n with
  | leaf => cases h
  | branch role kind children =>
    unfold typeParts at h
    dsimp only at h
    split at h
    · obtain ⟨arguments, harguments, hpart⟩ := mem_children_of_mem_argumentsIn h
      exact .inside harguments (.of_mem_children .self hpart)
    · exact .inside (List.mem_of_find?_eq_some (Option.mem_toList.1 h)) .self
    · exact .inside (List.mem_filter.1 h).1 .self
    · exact .inside (List.mem_of_find?_eq_some (Option.mem_toList.1 h)) .self
    · cases h

/-- The name that a type has itself is a part of its text. -/
theorem infix_of_ownName? {n : Node} {name : String} (h : ownName? n = some name) :
    name.toList <:+: n.text := by
  cases n with
  | leaf role kind before start text =>
    rw [ownName?] at h
    split at h
    · have hname : name.toList = (Node.leaf role kind before start text).text := by
        rw [← Option.some.inj h, String.toList_ofList, Node.text_leaf]
      exact hname ▸ List.infix_rfl
    · cases h
  | branch role kind children =>
    unfold ownName? at h
    dsimp only at h
    split at h
    · split at h
      · have hname : name.toList = (Node.branch role .nestedTypeName children).text := by
          rw [← Option.some.inj h, Node.string, String.toList_ofList]
        exact hname ▸ List.infix_rfl
      · cases h
    · obtain rfl := Option.some.inj h
      cases hhead : (Node.branch role .genericType children).child? .name with
      | none => exact List.nil_infix
      | some head =>
        rw [Option.map_some, Option.getD_some, Node.string, String.toList_ofList]
        exact Node.text_infix_of_mem_children (List.mem_of_find?_eq_some hhead)
    · cases h

/-- A name at an open place of a type is a part of the text of the type. -/
theorem Open.infix {n : Node} {name : String} (h : Open n name) : name.toList <:+: n.text := by
  induction h with
  | own h => exact infix_of_ownName? h
  | part hpart _ ih => exact ih.trans (within_of_mem_typeParts hpart).isInfix_text

end Source

end DaoGen
