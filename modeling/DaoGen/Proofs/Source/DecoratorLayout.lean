import DaoGen.Proofs.Source.ExprLayout
import DaoGen.Proofs.Source.Texts
set_option autoImplicit false

/-!
# Layout in decorators

A settled decorator has no positions and none of the layout that its reading passes over.  The
dotted name of a decorator is cut at its last dot: layout in front of that dot is passed over, and
layout behind it becomes a part of the name.  Reading a settled decorator gives the same name and
the same arguments (`Source.outline_readDecorator_settledDecorator`).
-/

namespace DaoGen

open DaoGen.Syntax (Node Kind Role)

namespace Source

/-! ## Dotted names -/

/-- Whether the last name of a path stands right behind its dot. -/
def endsTight : Node → Bool
  | .branch _ .member children =>
    match children.reverse with
    | .leaf _ kind before _ name :: .leaf _ .mark _ _ ['.'] :: _ =>
      before.isEmpty && kind ≠ .comment && !name.contains '.'
    | _ => false
  | _ => false

/-- A dotted name without the layout in front of its last dot. -/
def settledPath (n : Node) : Node := if endsTight n then n.spelled else n.whole

theorem splitPath_append {front name : List Char} (h : '.' ∉ name) :
    splitPath (front ++ '.' :: name) = (some (String.ofList front), String.ofList name) := by
  have hreverse : (front ++ '.' :: name).reverse = name.reverse ++ '.' :: front.reverse := by
    simp
  have htake : (front ++ '.' :: name).reverse.takeWhile (· ≠ '.') = name.reverse := by
    rw [hreverse, List.takeWhile_append_of_pos]
    · simp
    · intro c hc
      have hne : c ≠ '.' := by
        rintro rfl
        exact h (List.mem_reverse.1 hc)
      simpa using hne
  have hlength : (front ++ '.' :: name).length - name.reverse.length - 1 = front.length := by
    rw [List.length_append, List.length_cons, List.length_reverse]
    omega
  have hlt : name.reverse.length < (front ++ '.' :: name).length := by
    rw [List.length_append, List.length_cons, List.length_reverse]
    omega
  unfold splitPath
  dsimp only
  rw [htake, if_pos hlt, hlength, List.take_left, List.reverse_reverse]

theorem texts_of_endsTight {n : Node} (h : endsTight n = true) :
    ∃ name, '.' ∉ name ∧ (∃ front, n.text = front ++ '.' :: name) ∧
      ∃ front, n.spelled.text = front ++ '.' :: name := by
  unfold endsTight at h
  split at h
  · rename_i role children
    split at h
    · rename_i last kind before start name dot blanks place front hreverse
      have hchildren : children = front.reverse ++ [.leaf dot .mark blanks place ['.'],
          .leaf last kind before start name] := by
        rw [← List.reverse_reverse children, hreverse]
        simp
      simp only [Bool.and_eq_true, List.isEmpty_iff, decide_eq_true_eq, Bool.not_eq_true',
        List.contains_eq_mem, decide_eq_false_iff_not] at h
      obtain ⟨⟨rfl, hkind⟩, hname⟩ := h
      refine ⟨name, hname, ?_, Node.spellings front.reverse, ?_⟩
      · have hfull : (Node.branch role .member children).fullText =
            (Node.fullTexts front.reverse ++ blanks) ++ '.' :: name := by
          rw [Node.fullText, hchildren, Node.fullTexts_append]
          simp [Node.fullTexts, Node.fullText]
        have hopening : (Node.branch role .member children).opening? =
            (Node.openings? front.reverse).or (some (blanks, place)) := by
          rw [Node.opening?, hchildren, Node.openings?_append]
          rfl
        -- the blanks in front of the path end before its last dot
        have hprefix : (Node.branch role .member children).blanks <+:
            Node.fullTexts front.reverse ++ blanks := by
          rw [Node.blanks, hopening]
          cases hfront : Node.openings? front.reverse with
          | some found =>
            exact (Node.prefix_of_openings? _ hfront).trans (List.prefix_append _ _)
          | none =>
            rw [Node.fullTexts_of_openings?_none _ hfront]
            exact List.prefix_rfl
        obtain ⟨rest, hrest⟩ := hprefix
        have htext := Node.fullText_eq (.branch role .member children)
        rw [hfull, ← hrest, List.append_assoc] at htext
        exact ⟨rest, (List.append_cancel_left htext).symm⟩
      · rw [Node.spelled, Node.text_holding, hchildren, Node.spellings_append]
        simp [Node.spellings, Node.spelling, hkind]
    · cases h
  · cases h

/-- The last name of a path is the same when the path is settled. -/
theorem splitPath_settledPath (n : Node) :
    (splitPath (settledPath n).text).2 = (splitPath n.text).2 ∧
      (splitPath (settledPath n).text).1.isSome = (splitPath n.text).1.isSome := by
  unfold settledPath
  split
  · rename_i htight
    obtain ⟨name, hname, ⟨front, htext⟩, spelled, hspelled⟩ := texts_of_endsTight htight
    rw [htext, hspelled, splitPath_append hname, splitPath_append hname]
    exact ⟨rfl, rfl⟩
  · rw [Node.text_whole]
    exact ⟨rfl, rfl⟩

/-! ## Decorators -/

/-- A part of a call in a decorator. -/
def settledCallPart (n : Node) : Node :=
  if n.role = .function then settledPath n else settledPart n

/-- The name or the call of a decorator. -/
def settledTarget : Node → Node
  | .branch role .call children =>
    .branch role .call ((children.filter (!·.isLoose)).map settledCallPart)
  | n => settledPath n

/-- The parts of a decorator without the comments in front of its name. -/
def settledDecoratorParts : List Node → List Node
  | [] => []
  | n :: rest =>
    if n.isLoose && rest.any (!·.isMark "@") then settledDecoratorParts rest
    else settledTarget n :: settledDecoratorParts rest

/-- A decorator without the layout that its reading passes over. -/
def settledDecorator : Node → Node
  | .leaf role kind _ _ text => .leaf role kind [] .start text
  | .branch role kind children => .branch role kind (settledDecoratorParts children)

@[simp] theorem kind_settledDecorator (n : Node) : (settledDecorator n).kind = n.kind := by
  cases n <;> rfl

theorem kind_settledPath (n : Node) : (settledPath n).kind = n.kind := by
  unfold settledPath
  split <;> simp

theorem role_settledPath (n : Node) : (settledPath n).role = n.role := by
  unfold settledPath
  split <;> simp

theorem kind_settledTarget (n : Node) : (settledTarget n).kind = n.kind := by
  unfold settledTarget
  split
  · rfl
  · exact kind_settledPath _

theorem role_settledCallPart (n : Node) : (settledCallPart n).role = n.role := by
  unfold settledCallPart
  split
  · exact role_settledPath n
  · exact role_settledPart n

theorem settledPath_of_kind {n : Node} (h : n.kind ≠ .member) : settledPath n = n.whole := by
  have htight : endsTight n = false := by
    unfold endsTight
    split
    · exact absurd rfl h
    · rfl
  rw [settledPath, htight]
  rfl

theorem settledTarget_of_kind {n : Node} (h : n.kind ≠ .call) :
    settledTarget n = settledPath n := by
  unfold settledTarget
  split
  · exact absurd rfl h
  · rfl

theorem isMark_settledTarget (mark : String) (n : Node) :
    (settledTarget n).isMark mark = n.isMark mark := by
  by_cases hkind : n.kind = .mark
  · have hcall : n.kind ≠ .call := by simp [hkind]
    have hmember : n.kind ≠ .member := by simp [hkind]
    rw [settledTarget_of_kind hcall, settledPath_of_kind hmember, Node.isMark, Node.isMark,
      Node.kind_whole, Node.string_whole]
  · have hsettled : (settledTarget n).kind ≠ .mark := by
      rw [kind_settledTarget]
      exact hkind
    rw [Node.isMark_eq_false hkind, Node.isMark_eq_false hsettled]

/-! ### Names -/

/-- A fold that takes over what it finds ends with what it found last. -/
theorem foldl_found {α β : Type} (test : α → Bool) (f : α → β) (list : List α) (found : β) :
    list.foldl (fun found a => if test a then f a else found) found =
      (((list.filter test).getLast?).map f).getD found := by
  induction list generalizing found with
  | nil => rfl
  | cons a rest ih =>
    rw [List.foldl_cons, ih, List.filter_cons]
    cases test a with
    | false => rfl
    | true =>
      rw [if_pos rfl, if_pos rfl, List.getLast?_cons]
      cases (rest.filter test).getLast? <;> rfl

/-- The node that a part of a decorator names it by. -/
def namedBy (n : Node) : Option Node := if n.kind = .call then n.child? .function else some n

/-- A decorator is named by the last of its parts. -/
theorem decoratorTarget_eq (n : Node) :
    decoratorTarget n = ((n.children.filter (!·.isMark "@")).getLast?).bind namedBy := by
  have hstep : (fun (target : Option Node) child =>
      if child.isMark "@" then target
      else if child.kind = .call then child.child? .function
      else some child) =
      fun target child => if !child.isMark "@" then namedBy child else target := by
    funext target child
    cases child.isMark "@" <;> rfl
  unfold decoratorTarget
  rw [hstep, foldl_found]
  cases (n.children.filter (!·.isMark "@")).getLast? <;> rfl

/-- The arguments of a decorator are those of its last call. -/
theorem decoratorArguments_eq (n : Node) :
    decoratorArguments n =
      (((n.children.filter (·.kind = .call)).getLast?).map (argumentForms ·.children)).getD [] := by
  rw [← foldl_found]
  simp only [decoratorArguments, decide_eq_true_eq]

theorem getLast?_settledDecoratorParts (nodes : List Node) :
    ((settledDecoratorParts nodes).filter (!·.isMark "@")).getLast? =
      ((nodes.filter (!·.isMark "@")).getLast?).map settledTarget := by
  induction nodes with
  | nil => rfl
  | cons n rest ih =>
    rw [settledDecoratorParts]
    split
    · rename_i hdropped
      obtain ⟨hloose, hmore⟩ := Bool.and_eq_true_iff.1 hdropped
      have hmark : n.isMark "@" = false :=
        Node.isMark_eq_false (by simp [Node.kind_of_isLoose hloose]) "@"
      obtain ⟨later, hlater, hkept⟩ := List.any_eq_true.1 hmore
      rw [ih, List.filter_cons, hmark, Bool.not_false, if_pos rfl, List.getLast?_cons]
      cases hlast : (rest.filter (!·.isMark "@")).getLast? with
      | none =>
        rw [List.getLast?_eq_none_iff] at hlast
        exact absurd (hlast ▸ List.mem_filter.2 ⟨hlater, hkept⟩) List.not_mem_nil
      | some last => rfl
    · rw [List.filter_cons, List.filter_cons, isMark_settledTarget]
      cases n.isMark "@" with
      | true => exact ih
      | false =>
        rw [Bool.not_false, if_pos rfl, if_pos rfl, List.getLast?_cons, List.getLast?_cons, ih]
        cases (rest.filter (!·.isMark "@")).getLast? <;> rfl

theorem filter_call_settledDecoratorParts (nodes : List Node) :
    (settledDecoratorParts nodes).filter (·.kind = .call) =
      (nodes.filter (·.kind = .call)).map settledTarget := by
  induction nodes with
  | nil => rfl
  | cons n rest ih =>
    rw [settledDecoratorParts]
    split
    · rename_i hdropped
      have hkind := Node.kind_of_isLoose (Bool.and_eq_true_iff.1 hdropped).1
      simp [hkind, ih]
    · rw [List.filter_cons, List.filter_cons, kind_settledTarget, ih]
      split <;> rfl

theorem child?_function_settledCall (nodes : List Node) :
    ((nodes.filter (!·.isLoose)).map settledCallPart).find? (·.role = .function) =
      (nodes.find? (·.role = .function)).map settledPath := by
  induction nodes with
  | nil => rfl
  | cons n rest ih =>
    rw [List.filter_cons, List.find?_cons]
    by_cases hloose : n.isLoose = true
    · simpa [hloose, Node.role_of_isLoose hloose] using ih
    · rw [Bool.not_eq_true] at hloose
      rw [hloose, Bool.not_false, if_pos rfl, List.map_cons, List.find?_cons, role_settledCallPart]
      by_cases hrole : n.role = .function
      · simp [hrole, settledCallPart]
      · simpa [hrole] using ih

theorem namedBy_settledTarget (n : Node) :
    namedBy (settledTarget n) = (namedBy n).map settledPath := by
  unfold namedBy
  rw [kind_settledTarget]
  by_cases hcall : n.kind = .call
  · rw [if_pos hcall, if_pos hcall]
    cases n with
    | leaf role kind before start text =>
      obtain rfl : kind = .call := hcall
      rfl
    | branch role kind children =>
      obtain rfl : kind = .call := hcall
      exact child?_function_settledCall children
  · rw [if_neg hcall, if_neg hcall, settledTarget_of_kind hcall]
    rfl

theorem decoratorTarget_settledDecorator (n : Node) :
    decoratorTarget (settledDecorator n) = (decoratorTarget n).map settledPath := by
  rw [decoratorTarget_eq, decoratorTarget_eq]
  cases n with
  | leaf => rfl
  | branch role kind children =>
    have hlast := getLast?_settledDecoratorParts children
    rw [settledDecorator, Node.children, Node.children, hlast]
    cases (children.filter (!·.isMark "@")).getLast? with
    | none => rfl
    | some last => exact namedBy_settledTarget last

/-! ### Arguments -/

theorem argumentForms_cons_congr {nodes more : List Node}
    (h : argumentForms nodes = argumentForms more) (n : Node) :
    argumentForms (n :: nodes) = argumentForms (n :: more) := by
  by_cases hrole : n.role = .arguments
  · cases n with
    | leaf role kind before start text =>
      obtain rfl : role = .arguments := hrole
      exact h
    | branch role kind children =>
      obtain rfl : role = .arguments := hrole
      rfl
  · rw [argumentForms_cons_of_role hrole, argumentForms_cons_of_role hrole, h]

theorem argumentForms_settledCall (nodes : List Node) :
    argumentForms ((nodes.filter (!·.isLoose)).map settledCallPart) =
      argumentForms (settledParts nodes) := by
  induction nodes with
  | nil => rfl
  | cons n rest ih =>
    rw [List.filter_cons, settledParts_cons]
    cases n.isLoose with
    | true => exact ih
    | false =>
      rw [Bool.not_false, if_pos rfl, List.map_cons]
      by_cases hrole : n.role = .function
      · have hpath : (settledCallPart n).role ≠ .arguments := by
          rw [role_settledCallPart, hrole]
          decide
        have hpart : (settledPart n).role ≠ .arguments := by
          rw [role_settledPart, hrole]
          decide
        rw [argumentForms_cons_of_role hpath, ih]
        exact (argumentForms_cons_of_role hpart _).symm
      · rw [settledCallPart, if_neg hrole]
        exact argumentForms_cons_congr ih _

theorem outlines_decoratorArguments (n : Node) :
    Expr.outlines (decoratorArguments (settledDecorator n)) =
      Expr.outlines (decoratorArguments n) := by
  rw [decoratorArguments_eq, decoratorArguments_eq]
  cases n with
  | leaf => rfl
  | branch role kind children =>
    have hcalls := filter_call_settledDecoratorParts children
    rw [settledDecorator, Node.children, Node.children, hcalls, List.getLast?_map]
    cases hlast : (children.filter (·.kind = .call)).getLast? with
    | none => rfl
    | some call =>
      have hcall : call.kind = .call := by
        have hmem := List.mem_of_getLast? hlast
        simpa using (List.mem_filter.1 hmem).2
      cases call with
      | leaf role kind before start text =>
        obtain rfl : kind = .call := hcall
        rfl
      | branch role kind parts =>
        obtain rfl : kind = .call := hcall
        have harguments := argumentForms_settledCall parts
        have hsettled := outlines_argumentForms_settledParts parts
        rw [← harguments] at hsettled
        exact hsettled

/-- A decorator is read as the same when it is settled. -/
theorem outline_readDecorator_settledDecorator (n : Node) :
    (readDecorator (settledDecorator n)).outline = (readDecorator n).outline := by
  have harguments := outlines_decoratorArguments n
  rw [Expr.outlines_eq_map, Expr.outlines_eq_map] at harguments
  have hpath : (splitPath (((decoratorTarget (settledDecorator n)).map (·.text)).getD [])).2 =
        (splitPath (((decoratorTarget n).map (·.text)).getD [])).2 ∧
      (splitPath (((decoratorTarget (settledDecorator n)).map (·.text)).getD [])).1.isSome =
        (splitPath (((decoratorTarget n).map (·.text)).getD [])).1.isSome := by
    rw [decoratorTarget_settledDecorator]
    cases decoratorTarget n with
    | none => exact ⟨rfl, rfl⟩
    | some target => exact splitPath_settledPath target
  have hqualifier : ∀ {one other : Option String}, one.isSome = other.isSome →
      one.map (fun _ => "") = other.map fun _ => "" := by
    intro one other h
    cases one <;> cases other <;> simp_all
  unfold readDecorator Decorator.outline
  dsimp only
  rw [hpath.1, hqualifier hpath.2, harguments]

end Source

end DaoGen
