import DaoGen.Proofs.Source.Literals
import DaoGen.Proofs.Source.TypeLayout
set_option autoImplicit false

/-!
# Layout in expressions

A settled expression has no positions and none of the layout that its reading passes over.  What is
not passed over stays: the layout inside of a key or of a template, and a comment in front of the
expression that parentheses hold.  Settling an expression does not change what it is evaluated to
(`Source.outline_formOf_settledExpr`).
-/

namespace DaoGen

open DaoGen.Syntax (Node Kind Role)

namespace Source

/-- The roles whose node is read as a text. -/
def wordRoles : List Role := [.key, .property, .operator]

/-- The roles whose node is read as an expression. -/
def exprRoles : List Role := [.object, .function, .argument, .value]

mutual

/-- An expression without the layout that its reading passes over. -/
def settledExpr (n : Node) : Node :=
  match n with
  | .leaf role kind _ _ text => .leaf role kind [] .start text
  | .branch role kind children =>
    match kind with
    | .string | .template => n.whole
    | .array => .branch role kind (settledExprs children)
    | .object => .branch role kind (settledProperties children)
    | .member | .call | .unary => .branch role kind (settledParts children)
    | .parenthesized | .asExpression | .satisfies => .branch role kind (settledFirst children)
    | _ => n.spelled

/-- Expressions and marks without comments between them. -/
def settledExprs : List Node → List Node
  | [] => []
  | n :: rest => if n.isLoose then settledExprs rest else settledExpr n :: settledExprs rest

/-- A member of an object. -/
def settledProperty (n : Node) : Node :=
  match n with
  | .leaf role kind _ _ text => .leaf role kind [] .start text
  | .branch role kind children =>
    match kind with
    | .pair => .branch role kind (settledParts children)
    | _ => n.spelled

/-- Members of an object without comments between them. -/
def settledProperties : List Node → List Node
  | [] => []
  | n :: rest =>
    if n.isLoose then settledProperties rest
    else settledProperty n :: settledProperties rest

/-- A part of an expression or of a pair that is no expression. -/
def settledOther (n : Node) : Node :=
  match n with
  | .leaf role kind _ _ text => .leaf role kind [] .start text
  | .branch role kind children =>
    if role = .arguments then .branch role kind (settledExprs children)
    else if wordRoles.contains role then n.whole
    else n.spelled

/-- Parts of an expression or of a pair without comments between them. -/
def settledParts : List Node → List Node
  | [] => []
  | n :: rest =>
    if n.isLoose then settledParts rest
    else (if exprRoles.contains n.role then settledExpr n else settledOther n) :: settledParts rest

/-- What holds an expression.  A comment in front of the expression stays. -/
def settledFirst : List Node → List Node
  | [] => []
  | n :: rest =>
    if n.isNamed then settledExpr n :: settledExprs rest else n.whole :: settledFirst rest

end

@[simp] theorem kind_settledExpr (n : Node) : (settledExpr n).kind = n.kind := by
  cases n with
  | leaf => rfl
  | branch role kind children =>
    rw [settledExpr.eq_def]
    dsimp only
    split <;> simp [Node.kind, Node.whole, Node.spelled, Node.holding]

@[simp] theorem role_settledExpr (n : Node) : (settledExpr n).role = n.role := by
  cases n with
  | leaf => rfl
  | branch role kind children =>
    rw [settledExpr.eq_def]
    dsimp only
    split <;> simp [Node.role, Node.whole, Node.spelled, Node.holding]

theorem role_settledOther (n : Node) : (settledOther n).role = n.role := by
  cases n with
  | leaf => rfl
  | branch role kind children =>
    rw [settledOther.eq_def]
    dsimp only
    split
    · rfl
    · split
      · exact Node.role_whole _
      · exact Node.role_spelled _

theorem text_settledOther {n : Node} (h : n.role ∈ wordRoles) :
    (settledOther n).text = n.text := by
  cases n with
  | leaf => rw [settledOther, Node.text_leaf, Node.text_leaf]
  | branch role kind children =>
    have hrole : role ∈ wordRoles := h
    rw [settledOther.eq_def]
    dsimp only
    rw [if_neg, if_pos]
    · exact Node.text_whole _
    · simpa using hrole
    · rintro rfl
      exact absurd hrole (by decide)

/-- A part of an expression or of a pair without its layout. -/
def settledPart (n : Node) : Node :=
  if exprRoles.contains n.role then settledExpr n else settledOther n

theorem settledParts_cons (n : Node) (rest : List Node) :
    settledParts (n :: rest) =
      if n.isLoose then settledParts rest else settledPart n :: settledParts rest :=
  rfl

theorem role_settledPart (n : Node) : (settledPart n).role = n.role := by
  unfold settledPart
  split
  · exact role_settledExpr n
  · exact role_settledOther n

theorem settledPart_of_exprRole {n : Node} (h : n.role ∈ exprRoles) :
    settledPart n = settledExpr n :=
  if_pos (List.contains_iff_mem.2 h)

theorem text_settledPart {n : Node} (h : n.role ∈ wordRoles) :
    (settledPart n).text = n.text := by
  have hother : exprRoles.contains n.role = false := by
    have hall : ∀ role ∈ wordRoles, exprRoles.contains role = false := by decide
    exact hall n.role h
  rw [settledPart, hother]
  exact text_settledOther h

/-! ## Texts and forms by role -/

theorem find?_word_settledParts {role : Role} (h : role ∈ wordRoles) (nodes : List Node) :
    ((settledParts nodes).find? (·.role = role)).map (·.text) =
      (nodes.find? (·.role = role)).map (·.text) := by
  have hplain : role ≠ .plain := by
    rintro rfl
    exact absurd h (by decide)
  induction nodes with
  | nil => rfl
  | cons n rest ih =>
    rw [settledParts_cons, List.find?_cons]
    by_cases hloose : n.isLoose = true
    · simpa [hloose, Node.role_of_isLoose hloose, hplain.symm] using ih
    · rw [if_neg hloose, List.find?_cons, role_settledPart]
      by_cases hrole : n.role = role
      · simp [hrole, text_settledPart (hrole ▸ h)]
      · simpa [hrole] using ih

theorem roleText_settledParts {role : Role} (h : role ∈ wordRoles) (nodes : List Node) :
    roleText role (settledParts nodes) = roleText role nodes := by
  have htexts := congrArg (Option.map String.ofList) (find?_word_settledParts h nodes)
  rw [Option.map_map, Option.map_map] at htexts
  exact htexts

/-! ## Outlines -/

theorem outline_leafForm (kind : Kind) (span other : Text.Span) (text : List Char) :
    (leafForm kind span text).outline = (leafForm kind other text).outline := by
  unfold leafForm
  split
  case h_3 => split <;> rfl
  all_goals rfl

theorem forms_of_isLoose {n : Node} (h : n.isLoose = true) (rest : List Node) :
    forms (n :: rest) = forms rest := by
  obtain ⟨before, start, text, rfl⟩ := Node.eq_of_isLoose h
  rfl

/-- A literal between quotes is kept as it is. -/
theorem outline_formOf_whole {n : Node} (h : n.IsLiteral) :
    (formOf n.whole).outline = (formOf n).outline := by
  cases n with
  | leaf => exact outline_leafForm _ _ _ _
  | branch role kind children =>
    have htext := Node.text_whole (.branch role kind children)
    rw [Node.whole, Node.holding] at htext ⊢
    obtain rfl | rfl : kind = .string ∨ kind = .template := h
    all_goals rw [formOf.eq_def, formOf.eq_def (.branch role _ children), htext]; rfl

/-- The kinds of nodes with parts that make up a form. -/
def formedKinds : List Kind :=
  [.string, .template, .array, .object, .member, .call, .unary, .parenthesized, .asExpression,
    .satisfies]

/-- A node of any other kind has no form of its own. -/
theorem outline_formOf_of_kind {kind : Kind} (hkind : kind ∉ formedKinds) (role : Role)
    (children : List Node) :
    (formOf (.branch role kind children)).outline = .other default "" := by
  rw [formOf.eq_def]
  dsimp only
  split
  case h_11 => rfl
  all_goals exact absurd (by decide) hkind

theorem argumentForms_cons_of_role {n : Node} (h : n.role ≠ .arguments) (rest : List Node) :
    argumentForms (n :: rest) = argumentForms rest := by
  rw [argumentForms]
  rintro kind children rfl
  exact h rfl

theorem key_settledParts (nodes : List Node) :
    ((settledParts nodes).find? (·.role = .key)).map (trimmedKey ·.text) =
      (nodes.find? (·.role = .key)).map (trimmedKey ·.text) := by
  have htexts := congrArg (Option.map trimmedKey)
    (find?_word_settledParts (show Role.key ∈ wordRoles by decide) nodes)
  rw [Option.map_map, Option.map_map] at htexts
  exact htexts

/-- A member of an object without its places. -/
def outlineMember (m : String × Expr) : String × Expr := (m.1, m.2.outline)

theorem outlineMembers_properties_cons (n : Node) (rest : List Node) :
    Expr.outlineMembers (properties (n :: rest)) =
      ((memberOf? n).map outlineMember).toList ++ Expr.outlineMembers (properties rest) := by
  rw [properties_cons]
  cases memberOf? n <;> rfl

theorem memberOf?_eq_none {n : Node} (hleaf : n.kind ≠ .shorthand) (hbranch : n.kind ≠ .pair) :
    memberOf? n = none := by
  unfold memberOf?
  split
  · exact absurd rfl hleaf
  · exact absurd rfl hbranch
  · rfl

mutual

/-- An expression is evaluated to the same when it is settled. -/
theorem outline_formOf_settledExpr (n : Node) :
    (formOf (settledExpr n)).outline = (formOf n).outline := by
  cases n with
  | leaf => exact outline_leafForm _ _ _ _
  | branch role kind children =>
    have hforms := outlines_forms_settledExprs children
    have hmembers := outlineMembers_properties_settledProperties children
    have hroles {role : Role} (h : role ∈ exprRoles) := outline_roleForm_settledParts h children
    have harguments := outlines_argumentForms_settledParts children
    have hfirst := outline_innerForm_settledFirst children
    have hinner : ∀ span other text more,
        ((innerForm (settledFirst children)).getD (.other span text)).outline =
          ((innerForm children).getD (.other other more)).outline := by
      intro span other text more
      cases hopen : innerForm children <;> cases hsettled : innerForm (settledFirst children)
      all_goals simp_all [Expr.outline]
    rw [settledExpr.eq_def]
    dsimp only
    split
    case h_1 => exact outline_formOf_whole (.inl rfl)
    case h_2 => exact outline_formOf_whole (.inr rfl)
    case h_3 =>
      rw [formOf.eq_def, formOf.eq_def (.branch role .array children)]
      exact congrArg (Expr.array default) hforms
    case h_4 =>
      rw [formOf.eq_def, formOf.eq_def (.branch role .object children)]
      exact congrArg (Expr.object default) hmembers
    case h_5 =>
      have htarget := hroles (show Role.object ∈ exprRoles by decide)
      rw [formOf.eq_def, formOf.eq_def (.branch role .member children)]
      dsimp only
      rw [roleText_settledParts (by decide)]
      cases hs : roleForm .object (settledParts children) <;>
        cases ho : roleForm .object children <;>
        cases roleText .property children <;>
        simp_all [Expr.outline]
    case h_6 =>
      have hcallee := hroles (show Role.function ∈ exprRoles by decide)
      rw [formOf.eq_def, formOf.eq_def (.branch role .call children)]
      dsimp only
      cases hs : roleForm .function (settledParts children) <;>
        cases ho : roleForm .function children <;>
        simp_all [Expr.outline]
    case h_7 =>
      have hoperand := hroles (show Role.argument ∈ exprRoles by decide)
      rw [formOf.eq_def, formOf.eq_def (.branch role .unary children)]
      dsimp only
      rw [roleText_settledParts (by decide)]
      cases hs : roleForm .argument (settledParts children) <;>
        cases ho : roleForm .argument children <;>
        cases roleText .operator children <;>
        simp_all [Expr.outline]
    case h_8 | h_9 | h_10 =>
      rw [formOf.eq_def, formOf.eq_def (.branch role _ children)]
      exact hinner _ _ _ _
    case h_11 =>
      have hkind : kind ∉ formedKinds := by simp_all [formedKinds]
      rw [Node.spelled, Node.holding, outline_formOf_of_kind hkind, outline_formOf_of_kind hkind]

theorem outlines_forms_settledExprs (nodes : List Node) :
    Expr.outlines (forms (settledExprs nodes)) = Expr.outlines (forms nodes) := by
  cases nodes with
  | nil => rfl
  | cons n rest =>
    have hrest := outlines_forms_settledExprs rest
    have hn := outline_formOf_settledExpr n
    rw [settledExprs]
    by_cases hloose : n.isLoose = true
    · rw [if_pos hloose, forms_of_isLoose hloose, hrest]
    · rw [if_neg hloose, forms, forms, Node.isNamed, Node.isComment, Node.isNamed, Node.isComment,
        kind_settledExpr]
      split
      · rw [Expr.outlines, Expr.outlines, hn, hrest]
      · exact hrest

theorem outlineMember_memberOf?_settledProperty (n : Node) :
    (memberOf? (settledProperty n)).map outlineMember = (memberOf? n).map outlineMember := by
  cases n with
  | leaf role kind before start text =>
    by_cases hkind : kind = .shorthand
    · subst hkind
      rfl
    · have hnone : ∀ before start, memberOf? (.leaf role kind before start text) = none := by
        intro before start
        unfold memberOf?
        split
        · cases ‹_ = _›
          exact absurd rfl hkind
        · cases ‹_ = _›
        · rfl
      rw [settledProperty, hnone, hnone]
  | branch role kind children =>
    have hvalue := outline_roleForm_settledParts (show Role.value ∈ exprRoles by decide) children
    rw [settledProperty.eq_def]
    dsimp only
    split
    · rw [memberOf?, memberOf?, key_settledParts]
      revert hvalue
      generalize (children.find? (·.role = .key)).map (trimmedKey ·.text) = key
      generalize roleForm .value (settledParts children) = settled
      generalize roleForm .value children = value
      intro hvalue
      rcases key with _ | _ | ⟨c, key⟩ <;> cases settled <;> cases value <;>
        simp_all [outlineMember]
    · rename_i hpair
      have hnone : ∀ children, memberOf? (.branch role kind children) = none := by
        intro children
        unfold memberOf?
        split
        · cases ‹_ = _›
        · cases ‹_ = _›
          exact absurd rfl hpair
        · rfl
      rw [Node.spelled, Node.holding, hnone, hnone]

theorem outlineMembers_properties_settledProperties (nodes : List Node) :
    Expr.outlineMembers (properties (settledProperties nodes)) =
      Expr.outlineMembers (properties nodes) := by
  cases nodes with
  | nil => rfl
  | cons n rest =>
    have hrest := outlineMembers_properties_settledProperties rest
    have hn := outlineMember_memberOf?_settledProperty n
    rw [settledProperties, outlineMembers_properties_cons n]
    by_cases hloose : n.isLoose = true
    · have hkind := Node.kind_of_isLoose hloose
      rw [if_pos hloose, memberOf?_eq_none (by simp [hkind]) (by simp [hkind]), hrest]
      rfl
    · rw [if_neg hloose, outlineMembers_properties_cons, hn, hrest]

theorem outline_roleForm_settledParts {role : Role} (h : role ∈ exprRoles) (nodes : List Node) :
    (roleForm role (settledParts nodes)).map (·.outline) =
      (roleForm role nodes).map (·.outline) := by
  cases nodes with
  | nil => rfl
  | cons n rest =>
    have hrest := outline_roleForm_settledParts h rest
    have hn := outline_formOf_settledExpr n
    rw [settledParts_cons]
    by_cases hloose : n.isLoose = true
    · have hrole : n.role ≠ role := by
        rw [Node.role_of_isLoose hloose]
        rintro rfl
        exact absurd h (by decide)
      rw [if_pos hloose, roleForm, if_neg hrole, hrest]
    · rw [if_neg hloose, roleForm, roleForm, role_settledPart]
      by_cases hrole : n.role = role
      · rw [if_pos hrole, if_pos hrole, settledPart_of_exprRole (hrole ▸ h)]
        exact congrArg some hn
      · rw [if_neg hrole, if_neg hrole, hrest]

theorem outlines_argumentForms_settledParts (nodes : List Node) :
    Expr.outlines (argumentForms (settledParts nodes)) =
      Expr.outlines (argumentForms nodes) := by
  cases nodes with
  | nil => rfl
  | cons n rest =>
    have hrest := outlines_argumentForms_settledParts rest
    rw [settledParts_cons]
    by_cases hloose : n.isLoose = true
    · have hrole : n.role ≠ .arguments := by
        rw [Node.role_of_isLoose hloose]
        decide
      rw [if_pos hloose, argumentForms_cons_of_role hrole, hrest]
    · rw [if_neg hloose]
      by_cases hrole : n.role = .arguments
      · cases n with
        | leaf role kind before start text =>
          obtain rfl : role = .arguments := hrole
          exact hrest
        | branch role kind children =>
          obtain rfl : role = .arguments := hrole
          exact outlines_forms_settledExprs children
      · have hsettled : (settledPart n).role ≠ .arguments := by
          rw [role_settledPart]
          exact hrole
        rw [argumentForms_cons_of_role hrole, argumentForms_cons_of_role hsettled, hrest]

theorem outline_innerForm_settledFirst (nodes : List Node) :
    (innerForm (settledFirst nodes)).map (·.outline) = (innerForm nodes).map (·.outline) := by
  cases nodes with
  | nil => rfl
  | cons n rest =>
    have hrest := outline_innerForm_settledFirst rest
    have hn := outline_formOf_settledExpr n
    rw [settledFirst, innerForm]
    split
    · rename_i hnamed
      have hsettled : (settledExpr n).isNamed = true := by
        rw [Node.isNamed, kind_settledExpr]
        exact hnamed
      rw [innerForm, if_pos hsettled]
      exact congrArg some hn
    · rename_i hnamed
      have hwhole : ¬ n.whole.isNamed = true := by
        rw [Node.isNamed, Node.kind_whole]
        exact hnamed
      rw [innerForm, if_neg hwhole, hrest]

end

end Source

end DaoGen
