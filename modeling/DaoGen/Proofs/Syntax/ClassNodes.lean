import DaoGen.Proofs.Syntax.Kinds
import Mathlib.Data.List.Chain
set_option autoImplicit false

/-!
# Classes and members in syntax trees

The rules of the grammar give every class one name and one body, every method one name, and every
field a name in front of its type and its value.  In the body of a class decorators stand in front
of each other and of methods only; those of a field belong to its own node.  All of it is read off
the words of the rules.
-/

namespace DaoGen.Syntax

/-! ## Kinds -/

/-- Kinds of classes, of their bodies and members, and of the statements that export them. -/
def isDeclaring : Kind → Bool
  | .exportStatement | .classDeclaration | .abstractClassDeclaration | .classBody | .field
  | .methodDefinition | .methodSignature | .abstractSignature => true
  | _ => false

/-- Kinds of names that are no keys. -/
def isPlainName : Kind → Bool
  | .propertyName | .privateName => true
  | _ => false

/-- Kinds of names of members. -/
def isMemberName : Kind → Bool
  | .propertyName | .privateName | .string | .number | .computedName => true
  | _ => false

/-- Kinds of classes. -/
def isClassKind : Kind → Bool
  | .classDeclaration | .abstractClassDeclaration => true
  | _ => false

/-- Kinds of methods, with a body or without. -/
def isMethodKind : Kind → Bool
  | .methodDefinition | .methodSignature | .abstractSignature => true
  | _ => false

theorem isDeclaring_of_isClassKind {k : Kind} (h : isClassKind k = true) :
    isDeclaring k = true := by
  cases k <;> first | rfl | cases h

theorem isDeclaring_of_isMethodKind {k : Kind} (h : isMethodKind k = true) :
    isDeclaring k = true := by
  cases k <;> first | rfl | cases h

/-! ## Tests of the words of rules -/

section Grown

variable {rules : List Rule} {n : Node}

/-- A test of the words of the rules that give nodes of some kinds. -/
def allWords (rules : List Rule) (kinds : Kind → Bool) (test : Word → Bool) : Bool :=
  rules.all fun rule => !rule.1.kind?.any kinds || rule.2.words.all test

/-- The children of a node grow from a word that passes the test of the rules of its kind. -/
theorem Node.Grown.exists_row {kinds : Kind → Bool} {test : Word → Bool} (h : n.Grown rules)
    (htest : allWords rules kinds test) (hkind : kinds n.kind) :
    ∃ word, test word ∧ ∃ pieces, IsRow rules word pieces ∧ n.children = nodesIn pieces := by
  obtain ⟨rule, hrule, hown, word, hword, pieces, hrow, hchildren⟩ := h
  refine ⟨word, ?_, pieces, hrow, hchildren⟩
  have hwords := List.all_eq_true.1 htest rule hrule
  rw [hown, Option.any_some, hkind] at hwords
  exact List.all_eq_true.1 hwords word hword

/-- A node has one child of some kinds when the words of its rules have one step for them. -/
theorem Node.Grown.exists_child {kinds K : Kind → Bool} {hidden : Phrase → Bool}
    (h : n.Grown rules) (hkind : kinds n.kind) (hshut : Shut rules K hidden)
    (htest : allWords rules kinds (isSplit (shuns K hidden) (gives K) (shuns K hidden))) :
    ∃ child, n.children.filter (fun c => K c.kind) = [child] := by
  obtain ⟨word, hword, pieces, hrow, hchildren⟩ := h.exists_row htest hkind
  obtain ⟨x, part, nodes, hgives, hgrows, hfilter⟩ := hrow.filter_eq hshut hword
  obtain ⟨child, rfl, hK⟩ := hgrows.exists_of_gives hgives
  exact ⟨child, by simp [hchildren, hfilter, hK]⟩

end Grown

/-- No phrase has to be known to tell what shuns a kind. -/
theorem shut_of_hidden {K : Kind → Bool} (hcomment : K .comment = false) :
    Shut Grammar.rules K fun _ => false where
  comment := hcomment
  atoms _ _ hfalse := absurd hfalse Bool.false_ne_true

namespace Grammar

/-- Only phrases give the nodes of classes and of what belongs to them. -/
theorem own_isDeclaring : Own rules isDeclaring where
  rule := by
    have h : (rules.all fun rule => rule.2.atoms.all fun step =>
        step.2.kind.all (!isDeclaring ·)) = true := by decide +kernel
    exact fun rule hrule => List.all_eq_true.1 (List.all_eq_true.1 h rule hrule)
  repeated := by
    have h : ((Form.repetitionsOf (rules.map (·.2))).all fun form =>
        form.atoms.all fun step => step.2.kind.all (!isDeclaring ·)) = true := by decide +kernel
    exact fun form hform => List.all_eq_true.1 (List.all_eq_true.1 h form hform)
  token t := by
    unfold Token.kind
    split <;> rfl
  comment := rfl

theorem stop_notMem_tokens : .stop ∉ Form.tokensOf (rules.map (·.2)) := by decide +kernel

end Grammar

/-- Below the tree of a text, the nodes of classes and exports have the children of their
phrases. -/
theorem grown_of_parse? {text : List Char} {tree child : Node} (h : parse? text = some tree)
    (hchild : child ∈ tree.children) (hkind : isDeclaring child.kind) :
    child.Grown Grammar.rules := by
  obtain ⟨d, hd, hhead⟩ := Option.bind_eq_some_iff.1 h
  exact (isWhole_of_derivation? hd).grown Grammar.own_isDeclaring Grammar.asksForNames
    Grammar.stop_notMem_tokens (Table.alphabet_ofRules _) (List.mem_of_head? hhead) hchild hkind

/-! ## Classes -/

section Nodes

variable {n : Node}

theorem exists_typeName (h : n.Grown Grammar.rules) (hkind : isClassKind n.kind) :
    ∃ name, n.children.filter (·.kind = .typeName) = [name] :=
  h.exists_child (K := fun k => k = .typeName) hkind (shut_of_hidden rfl) (by decide +kernel)

theorem exists_classBody (h : n.Grown Grammar.rules) (hkind : isClassKind n.kind) :
    ∃ body, n.children.filter (·.kind = .classBody) = [body] :=
  h.exists_child (K := fun k => k = .classBody) hkind (shut_of_hidden rfl) (by decide +kernel)

/-! ## Names of members -/

/-- The step for the name of a member. -/
def isNameStep (step : Atom × Part) : Bool :=
  match step.1 with
  | .phrase p => p = .propertyName && step.2 = {}
  | _ => false

/-- The name of a member is one node. -/
theorem exists_of_isNameStep {x : Atom} {part : Part} {nodes : List Node}
    (hgrows : Grows Grammar.rules x part nodes) (hstep : isNameStep (x, part)) :
    ∃ name, nodes.filter (fun n => isMemberName n.kind) = [name] := by
  have hwords : (Grammar.rules.all fun rule => !decide (rule.1 = .propertyName) ||
      rule.2.words.all (isSplit (shuns isMemberName fun _ => false) (gives isMemberName)
        (shuns isMemberName fun _ => false))) = true := by decide +kernel
  unfold isNameStep at hstep
  split at hstep
  · rename_i p hatom
    obtain rfl : x = .phrase p := hatom
    obtain ⟨rfl, rfl⟩ : p = .propertyName ∧ part = {} := by simpa using hstep
    obtain ⟨rule, hrule, hphrase, word, hword, pieces, hrow, rfl⟩ := hgrows.exists_row
    have htest := List.all_eq_true.1 hwords rule hrule
    rw [decide_eq_true hphrase] at htest
    obtain ⟨y, inner, made, hgives, hmade, hfilter⟩ :=
      hrow.filter_eq (shut_of_hidden rfl) (List.all_eq_true.1 htest word hword)
    obtain ⟨name, rfl, hname⟩ := hmade.exists_of_gives hgives
    have hnodes : Part.gather {} Phrase.propertyName.kind? (nodesIn pieces) = nodesIn pieces := rfl
    exact ⟨name, by simp [hnodes, hfilter, hname]⟩
  · cases hstep

/-- A method has one name. -/
theorem exists_memberName (h : n.Grown Grammar.rules) (hkind : isMethodKind n.kind) :
    ∃ name, n.children.filter (fun c => isMemberName c.kind) = [name] := by
  have hshut : Shut Grammar.rules isMemberName (· = .signature) := by
    refine ⟨rfl, fun rule hrule hphrase => ?_⟩
    have hatoms : (Grammar.rules.all fun rule => !decide (rule.1 = .signature) ||
        rule.2.atoms.all (shuns isMemberName (· = .signature))) = true := by decide +kernel
    exact forall_atoms_of_all hatoms rule hrule hphrase
  have htest : allWords Grammar.rules isMethodKind (isSplit (shuns isMemberName (· = .signature))
      isNameStep (shuns isMemberName (· = .signature))) := by decide +kernel
  obtain ⟨word, hword, pieces, hrow, hchildren⟩ := h.exists_row htest hkind
  obtain ⟨x, part, nodes, hstep, hgrows, hfilter⟩ := hrow.filter_eq hshut hword
  obtain ⟨name, hnodes⟩ := exists_of_isNameStep hgrows hstep
  exact ⟨name, by rw [hchildren, hfilter, hnodes]⟩

theorem not_isPlainName {k : Kind} (h : isMemberName k = false) : isPlainName k = false := by
  cases k <;> first | rfl | cases h

/-- The plain names among some nodes are among their names. -/
theorem filter_isPlainName {nodes names : List Node}
    (h : nodes.filter (fun n => isMemberName n.kind) = names) :
    nodes.filter (fun n => isPlainName n.kind) = names.filter fun n => isPlainName n.kind := by
  rw [← h, List.filter_filter]
  refine List.filter_congr fun n _ => ?_
  cases hname : isMemberName n.kind with
  | true => rw [Bool.and_true]
  | false => rw [Bool.and_false, not_isPlainName hname]

/-- Phrases of the value of a field that have no nodes of their own. -/
def isOpenValue (p : Phrase) : Bool := p = .initializer || p = .expression || p = .primary

/-- The first name among the children of a field is that of the field, and the only one that can
be a plain one. -/
theorem exists_fieldName (h : n.Grown Grammar.rules) (hkind : n.kind = .field) :
    ∃ name, n.children.find? (fun c => isMemberName c.kind) = some name ∧
      n.children.filter (fun c => isPlainName c.kind) =
        [name].filter fun c => isPlainName c.kind := by
  have hshut : Shut Grammar.rules isPlainName isOpenValue := by
    refine ⟨rfl, fun rule hrule hphrase => ?_⟩
    have hatoms : (Grammar.rules.all fun rule => !isOpenValue rule.1 ||
        rule.2.atoms.all (shuns isPlainName isOpenValue)) = true := by decide +kernel
    exact forall_atoms_of_all hatoms rule hrule hphrase
  have htest : allWords Grammar.rules (· = .field) (isSplit (shuns isMemberName fun _ => false)
      isNameStep (shuns isPlainName isOpenValue)) := by decide +kernel
  obtain ⟨word, hword, pieces, hrow, hchildren⟩ := h.exists_row htest (decide_eq_true hkind)
  obtain ⟨first, x, part, last, rfl, hfirst, hstep, hlast⟩ := exists_split hword
  obtain ⟨before, nodes, after, hbefore, hgrows, hafter, heq⟩ := hrow.split
  obtain ⟨name, hnodes⟩ := exists_of_isNameStep hgrows hstep
  have hnames := hbefore.shuns (shut_of_hidden rfl) hfirst
  have hplain := hafter.shuns hshut hlast
  refine ⟨name, ?_, ?_⟩
  · rw [hchildren, heq, List.find?_append, List.find?_append,
      List.find?_eq_none.2 fun c hc => by simp [hnames c hc], Option.none_or,
      ← List.head?_filter, hnodes]
    rfl
  · rw [hchildren, heq, List.filter_append, List.filter_append, filter_isPlainName hnodes,
      filter_eq_nil_of_kind fun c hc => not_isPlainName (hnames c hc),
      filter_eq_nil_of_kind hplain, List.nil_append, List.append_nil]

/-! ## Decorators in the body of a class -/

/-- After a decorator comes another one, or a method. -/
def Decorates (a b : Node) : Prop :=
  a.kind = .decorator → b.kind = .decorator ∨ b.kind = .methodDefinition

/-- Nodes, comments passed over, in which each decorator stands in front of a method. -/
structure Attached (nodes : List Node) : Prop where
  chain : (nodes.filter (!·.isComment)).IsChain Decorates
  last : ∀ n ∈ (nodes.filter (!·.isComment)).getLast?, n.kind ≠ .decorator

theorem attached_of_undecorated {nodes : List Node} (h : ∀ n ∈ nodes, n.kind ≠ .decorator) :
    Attached nodes where
  chain := by
    have hall : ∀ n ∈ nodes.filter (!·.isComment), n.kind ≠ .decorator :=
      fun n hn => h n (List.mem_filter.1 hn).1
    generalize nodes.filter (!·.isComment) = significant at hall
    induction significant with
    | nil => exact .nil
    | cons a rest ih =>
      refine List.isChain_cons.2 ⟨fun b _ hdecorator => ?_, ih fun n hn => ?_⟩
      · exact absurd hdecorator (hall a List.mem_cons_self)
      · exact hall n (List.mem_cons_of_mem a hn)
  last n hn := h n (List.mem_filter.1 (List.mem_of_getLast? hn)).1

theorem Attached.append {nodes others : List Node} (h : Attached nodes) (hothers : Attached others) :
    Attached (nodes ++ others) where
  chain := by
    rw [List.filter_append]
    refine List.isChain_append.2 ⟨h.chain, hothers.chain, fun a ha b _ hdecorator => ?_⟩
    exact absurd hdecorator (h.last a ha)
  last n hn := by
    rw [List.filter_append, List.getLast?_append] at hn
    rcases Option.or_eq_some_iff.1 hn with hn | ⟨-, hn⟩
    · exact hothers.last n hn
    · exact h.last n hn

theorem attached_of_decorators {nodes : List Node} {m : Node}
    (h : ∀ n ∈ nodes, n.isComment = true ∨ n.kind = .decorator)
    (hm : m.kind = .methodDefinition) : Attached (nodes ++ [m]) := by
  have hself : [m].filter (!·.isComment) = [m] := by simp [Node.isComment, hm]
  have hall : ∀ n ∈ nodes.filter (!·.isComment), n.kind = .decorator := by
    intro n hn
    obtain ⟨hn, hcomment⟩ := List.mem_filter.1 hn
    exact (h n hn).resolve_left (by simpa using hcomment)
  constructor
  · rw [List.filter_append, hself]
    generalize nodes.filter (!·.isComment) = decorators at hall
    induction decorators with
    | nil => exact .singleton m
    | cons a rest ih =>
      have hrest : ∀ n ∈ rest, n.kind = .decorator :=
        fun n hn => hall n (List.mem_cons_of_mem a hn)
      refine List.isChain_cons.2 ⟨fun b hb _ => ?_, ih hrest⟩
      rcases List.mem_append.1 (List.mem_of_head? hb) with hb | hb
      · exact .inl (hrest b hb)
      · exact .inr (List.mem_singleton.1 hb ▸ hm)
  · intro n hn
    rw [List.filter_append, hself, List.getLast?_append] at hn
    obtain rfl : m = n := by simpa using hn
    rw [hm]
    decide

theorem Attached.nodesIn {pieces : List Piece} (h : ∀ piece ∈ pieces, Attached piece.nodes) :
    Attached (nodesIn pieces) := by
  induction pieces with
  | nil => exact attached_of_undecorated (by simp)
  | cons piece rest ih =>
    exact (h piece List.mem_cons_self).append
      (ih fun other hother => h other (List.mem_cons_of_mem piece hother))

theorem attached_of_comments {nodes : List Node} (h : ∀ n ∈ nodes, n.isComment = true) :
    Attached nodes := by
  refine attached_of_undecorated fun n hn hkind => ?_
  have hcomment := h n hn
  rw [Node.isComment, hkind] at hcomment
  cases hcomment

def isDecoratorKind (k : Kind) : Bool := k = .decorator

/-- Kinds that stand neither for decorators nor for comments. -/
def isOtherKind (k : Kind) : Bool := k ≠ .decorator && k ≠ .comment

/-- A word of a member: without decorators, or decorators in front of a method. -/
def isMemberWord (word : Word) : Bool :=
  word.all (shuns isDecoratorKind fun _ => false) ||
    isSplit (shuns isOtherKind fun _ => false) (gives (· = .methodDefinition))
      (shuns isDecoratorKind fun _ => false) word

/-- A step of the body of a class: members, or something without decorators. -/
def isBodyStep (step : Atom × Part) : Bool :=
  match step.1 with
  | .repeated form => step.2 = {} && form.words.all isMemberWord
  | _ => shuns isDecoratorKind (fun _ => false) step

theorem attached_of_isMemberWord {word : Word} {pieces : List Piece}
    (hrow : IsRow Grammar.rules word pieces) (hword : isMemberWord word) :
    Attached (nodesIn pieces) := by
  have hundecorated : ∀ {word pieces}, IsRow Grammar.rules word pieces →
      (∀ step ∈ word, shuns isDecoratorKind (fun _ => false) step) → Attached (nodesIn pieces) := by
    intro word pieces hrow hshuns
    refine attached_of_undecorated fun n hn hkind => ?_
    have hother := hrow.shuns (shut_of_hidden rfl) hshuns n hn
    rw [hkind] at hother
    cases hother
  rcases Bool.or_eq_true_iff.1 hword with hword | hword
  · exact hundecorated hrow (List.all_eq_true.1 hword)
  · obtain ⟨first, x, part, last, rfl, hfirst, hgives, hlast⟩ := exists_split hword
    obtain ⟨before, nodes, after, hbefore, hgrows, hafter, heq⟩ := hrow.split
    obtain ⟨m, rfl, hm⟩ := hgrows.exists_of_gives hgives
    rw [heq]
    refine (attached_of_decorators (fun n hn => ?_) (of_decide_eq_true hm)).append
      (hundecorated hafter hlast)
    have hother := hbefore.shuns (shut_of_hidden rfl) hfirst n hn
    by_cases hkind : n.kind = .decorator
    · exact .inr hkind
    · exact .inl (decide_eq_true (by simpa [isOtherKind, hkind] using hother))

/-- However many members there are, decorators stand in front of methods. -/
theorem attached_of_repeated {form : Form} (hform : form.words.all isMemberWord) {nodes : List Node}
    (h : Grows Grammar.rules (.repeated form) {} nodes) : Attached nodes := by
  -- A round is two repetitions of the same form, so the induction is on how the nodes grew.
  generalize hx : Atom.repeated form = x at h
  generalize hpart : ({} : Part) = part at h
  induction h with
  | empty => cases hx
  | leaf => cases hx
  | phrase => cases hx
  | repeated other mem part pieces word comments grows ih =>
    obtain rfl := Atom.repeated.inj hx
    subst hpart
    have hnodes : Part.gather {} none (nodesIn pieces) = nodesIn pieces := rfl
    rw [hnodes]
    rcases List.mem_cons.1 word with hself | hword
    · refine Attached.nodesIn fun piece hpiece => ?_
      cases hstep : piece.step with
      | none => exact attached_of_comments (comments piece hpiece hstep)
      | some step =>
        have hmem := mem_wordOf hpiece hstep
        obtain rfl : step = (.repeated form, {}) := by simpa [hself] using hmem
        exact ih piece hpiece _ _ hstep rfl rfl
    · exact attached_of_isMemberWord ⟨rfl, comments, grows⟩ (List.all_eq_true.1 hform _ hword)

/-- In the body of a class each decorator stands in front of a method. -/
theorem attached_children (h : n.Grown Grammar.rules) (hkind : n.kind = .classBody) :
    Attached n.children := by
  have htest : allWords Grammar.rules (· = .classBody) (·.all isBodyStep) := by decide +kernel
  obtain ⟨word, hword, pieces, hrow, hchildren⟩ := h.exists_row htest (decide_eq_true hkind)
  rw [hchildren]
  refine Attached.nodesIn fun piece hpiece => ?_
  cases hstep : piece.step with
  | none => exact attached_of_comments (hrow.comments piece hpiece hstep)
  | some step =>
    obtain ⟨x, part⟩ := step
    have hmem : (x, part) ∈ word := hrow.spells ▸ mem_wordOf hpiece hstep
    have hgrows := hrow.grows piece hpiece x part hstep
    have hbody := List.all_eq_true.1 hword _ hmem
    unfold isBodyStep at hbody
    split at hbody
    · rename_i form hatom
      obtain rfl : x = .repeated form := hatom
      obtain ⟨hpart, hform⟩ := Bool.and_eq_true_iff.1 hbody
      obtain rfl : part = {} := of_decide_eq_true hpart
      exact attached_of_repeated hform hgrows
    · refine attached_of_undecorated fun n hn hdecorator => ?_
      have hother := hgrows.shuns (shut_of_hidden rfl) hbody n hn
      rw [hdecorator] at hother
      cases hother

end Nodes

end DaoGen.Syntax
