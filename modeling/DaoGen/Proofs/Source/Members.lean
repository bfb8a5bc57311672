import DaoGen.Proofs.Source.MemberLayout
import DaoGen.Proofs.Syntax.ClassNodes
import DaoGen.Source.File
set_option autoImplicit false

/-!
# Members of classes

A body of a class is read node by node; decorators wait for the next member.  Where each decorator
stands in front of a method, as in the tree of every text, the decorators that wait are those
directly in front of the next node, and each member gets its own (`matches_readBody`).

A method has a name of whatever form and is read.  A field is read when its name is no key
(`forall₂_fields`); one that is named by a string, a number or a computed key is left out.
-/

namespace DaoGen.Source

open DaoGen.Syntax

/-! ## Member nodes -/

/-- A member among the nodes of a class body, with the decorators directly in front of it. -/
structure MemberNode where
  front : List Node
  node : Node

/-- The decorators that some nodes end with, comments passed over. -/
def decoratorsAtEnd (nodes : List Node) : List Node :=
  ((nodes.filter (!·.isComment)).reverse.takeWhile (·.kind = .decorator)).reverse

/-- The members of some kinds among nodes that stand behind others. -/
def membersBehind (kinds : Kind → Bool) (before : List Node) : List Node → List MemberNode
  | [] => []
  | n :: rest =>
    if kinds n.kind then ⟨decoratorsAtEnd before, n⟩ :: membersBehind kinds (before ++ [n]) rest
    else membersBehind kinds (before ++ [n]) rest

/-- The fields of a class body. -/
def fieldNodes (body : Node) : List MemberNode := membersBehind (· = .field) [] body.children

/-- The methods of a class body: accessors, constructors and signatures among them. -/
def methodNodes (body : Node) : List MemberNode := membersBehind isMethodKind [] body.children

namespace MemberNode

/-- All decorators of a member: those in front of it, and those at the start of its own node. -/
def decorators (m : MemberNode) : List Node :=
  m.front ++ m.node.children.filter (·.kind = .decorator)

/-- The name of a member: a name, a private name, a string, a number or a computed key. -/
def name? (m : MemberNode) : Option Node := m.node.children.find? fun c => isMemberName c.kind

/-- Whether a member is named by a name or a private name, and not by a key. -/
def isPlain (m : MemberNode) : Bool := m.name?.any fun name => isPlainName name.kind

/-- What a field is read as. -/
structure IsField (m : MemberNode) (field : Field) : Prop where
  name : m.name?.map (·.string) = some field.name
  type : field.type = annotationIn m.node.children
  isStatic : field.isStatic = hasWord "static" m.node.children
  decorators : field.decorators = m.decorators.map readDecorator
  span : field.span = m.node.span

/-- What a method is read as. -/
structure IsMethod (m : MemberNode) (method : Method) : Prop where
  name : m.name?.map (·.string) = some method.name
  decorators : method.decorators = m.decorators.map readDecorator
  span : method.span = m.node.span

/-- The field that is read off a member with its decorators. -/
def field? (m : MemberNode) : Option Field := readField (m.front.map readDecorator) m.node

/-- The method that is read off a member with its decorators. -/
def method? (m : MemberNode) : Option Method := readMethod (m.front.map readDecorator) m.node

end MemberNode

theorem membersBehind_concat (kinds : Kind → Bool) (before nodes : List Node) (n : Node) :
    membersBehind kinds before (nodes ++ [n]) = membersBehind kinds before nodes ++
      if kinds n.kind then [⟨decoratorsAtEnd (before ++ nodes), n⟩] else [] := by
  induction nodes generalizing before with
  | nil => simp [membersBehind]
  | cons first rest ih =>
    rw [List.cons_append, membersBehind, membersBehind, ih, List.append_assoc]
    split <;> rfl

theorem mem_of_mem_membersBehind {kinds : Kind → Bool} {before nodes : List Node} {m : MemberNode}
    (h : m ∈ membersBehind kinds before nodes) : m.node ∈ nodes ∧ kinds m.node.kind := by
  induction nodes generalizing before with
  | nil => cases h
  | cons first rest ih =>
    rw [membersBehind] at h
    split at h
    · rename_i hkind
      rcases List.mem_cons.1 h with rfl | h
      · exact ⟨List.mem_cons_self, hkind⟩
      · exact ⟨List.mem_cons_of_mem _ (ih h).1, (ih h).2⟩
    · exact ⟨List.mem_cons_of_mem _ (ih h).1, (ih h).2⟩

/-! ## Decorators that wait -/

theorem decoratorsAtEnd_of_isComment (nodes : List Node) {n : Node} (h : n.isComment = true) :
    decoratorsAtEnd (nodes ++ [n]) = decoratorsAtEnd nodes := by
  simp [decoratorsAtEnd, h]

theorem decoratorsAtEnd_of_decorator (nodes : List Node) {n : Node} (h : n.kind = .decorator) :
    decoratorsAtEnd (nodes ++ [n]) = decoratorsAtEnd nodes ++ [n] := by
  simp [decoratorsAtEnd, Node.isComment, h]

theorem decoratorsAtEnd_of_other (nodes : List Node) {n : Node} (hcomment : n.isComment = false)
    (h : n.kind ≠ .decorator) : decoratorsAtEnd (nodes ++ [n]) = [] := by
  simp [decoratorsAtEnd, hcomment, h]

/-- No decorator waits for a node that is neither a decorator nor a method. -/
theorem decoratorsAtEnd_eq_nil {nodes : List Node} {n : Node}
    (hchain : ((nodes ++ [n]).filter (!·.isComment)).IsChain Decorates)
    (hcomment : n.isComment = false) (hdecorator : n.kind ≠ .decorator)
    (hmethod : n.kind ≠ .methodDefinition) : decoratorsAtEnd nodes = [] := by
  have hself : [n].filter (!·.isComment) = [n] := by simp [hcomment]
  rw [List.filter_append, hself] at hchain
  obtain ⟨-, -, hlink⟩ := List.isChain_append.1 hchain
  unfold decoratorsAtEnd
  rw [List.reverse_eq_nil_iff]
  cases hlast : (nodes.filter (!·.isComment)).reverse with
  | nil => rfl
  | cons last rest =>
    have hmem : last ∈ (nodes.filter (!·.isComment)).getLast? := by
      rw [← List.head?_reverse, hlast]
      rfl
    refine List.takeWhile_cons_of_neg fun hkind => ?_
    exact (hlink last hmem n rfl (of_decide_eq_true hkind)).elim hdecorator hmethod

/-! ## Reading a body -/

/-- What was read of the nodes so far: a field and a method for each one that gives it, and the
decorators that they end with. -/
structure Members.Matches (m : Members) (nodes : List Node) : Prop where
  fields : m.fields = (membersBehind (· = .field) [] nodes).filterMap MemberNode.field?
  methods : m.methods = (membersBehind isMethodKind [] nodes).filterMap MemberNode.method?
  pending : m.pending = (decoratorsAtEnd nodes).map readDecorator

theorem Members.Matches.add {m : Members} {nodes : List Node} {n : Node} (h : m.Matches nodes)
    (hchain : ((nodes ++ [n]).filter (!·.isComment)).IsChain Decorates) :
    (m.add n).Matches (nodes ++ [n]) := by
  have hfields (hkind : n.kind ≠ .field) : membersBehind (· = .field) [] (nodes ++ [n]) =
      membersBehind (· = .field) [] nodes := by
    rw [membersBehind_concat, decide_eq_false hkind]
    exact List.append_nil _
  have hmethods (hkind : isMethodKind n.kind = false) :
      membersBehind isMethodKind [] (nodes ++ [n]) = membersBehind isMethodKind [] nodes := by
    rw [membersBehind_concat, hkind]
    exact List.append_nil _
  have hmethod (hkind : isMethodKind n.kind = true) :
      (membersBehind isMethodKind [] (nodes ++ [n])).filterMap MemberNode.method? =
        m.methods ++ (readMethod m.pending n).toList := by
    rw [membersBehind_concat, hkind, List.filterMap_append, ← h.methods, h.pending]
    rfl
  unfold Members.add
  split
  case h_1 hkind =>
    refine ⟨?_, ?_, ?_⟩
    · rw [hfields (by rw [hkind]; decide)]
      exact h.fields
    · rw [hmethods (by rw [hkind]; rfl)]
      exact h.methods
    · rw [decoratorsAtEnd_of_decorator nodes hkind, List.map_append, ← h.pending]
      rfl
  case h_2 hkind =>
    have hcomment : n.isComment = false := by rw [Node.isComment, hkind]; rfl
    refine ⟨?_, ?_, ?_⟩
    · rw [membersBehind_concat, decide_eq_true hkind, List.filterMap_append, ← h.fields,
        h.pending]
      rfl
    · rw [hmethods (by rw [hkind]; rfl)]
      exact h.methods
    · rw [decoratorsAtEnd_of_other nodes hcomment (by rw [hkind]; decide)]
      rfl
  case h_3 hkind | h_4 hkind | h_5 hkind =>
    have hcomment : n.isComment = false := by rw [Node.isComment, hkind]; rfl
    refine ⟨?_, (hmethod (by rw [hkind]; rfl)).symm, ?_⟩
    · rw [hfields (by rw [hkind]; decide)]
      exact h.fields
    · rw [decoratorsAtEnd_of_other nodes hcomment (by rw [hkind]; decide)]
      rfl
  case h_6 hdecorator hfield hdefinition hsignature habstract =>
    have hkind : isMethodKind n.kind = false := by
      unfold isMethodKind
      split <;> first | rfl | contradiction
    refine ⟨?_, ?_, ?_⟩
    · rw [hfields hfield]
      exact h.fields
    · rw [hmethods hkind]
      exact h.methods
    · cases hcomment : n.isComment with
      | true =>
        rw [decoratorsAtEnd_of_isComment nodes hcomment]
        exact h.pending
      | false =>
        -- Such a node does not end the wait, but there is nothing that waits in front of it.
        rw [decoratorsAtEnd_of_other nodes hcomment hdecorator, h.pending,
          decoratorsAtEnd_eq_nil hchain hcomment hdecorator hdefinition]

/-- In a body where each decorator stands in front of a method, every member is read with its own
decorators. -/
theorem matches_readBody {body : Node} (h : Attached body.children) :
    (readBody body).Matches body.children := by
  -- The induction takes the last node off: what was read before it matches the nodes before it.
  have hprefix : ∀ nodes : List Node, (nodes.filter (!·.isComment)).IsChain Decorates →
      (nodes.foldl .add {} : Members).Matches nodes := by
    intro nodes
    induction nodes using List.reverseRecOn with
    | nil => exact fun _ => ⟨rfl, rfl, rfl⟩
    | append_singleton nodes n ih =>
      intro hchain
      rw [List.foldl_append]
      refine (ih ?_).add hchain
      rw [List.filter_append] at hchain
      exact (List.isChain_append.1 hchain).1
  exact hprefix body.children h.chain

/-! ## Names of members -/

theorem isMethodName_eq (n : Node) : isMethodName n = isMemberName n.kind := by
  unfold isMethodName isKeyName
  generalize n.kind = kind
  cases kind <;> rfl

theorem isPlainName_eq (n : Node) :
    (n.kind = .propertyName || n.kind = .privateName : Bool) = isPlainName n.kind := by
  generalize n.kind = kind
  cases kind <;> rfl

/-- A field that grew from the grammar has a name, and is read when that is a plain one. -/
theorem readField_of_grown (m : MemberNode) (h : m.node.Grown Grammar.rules)
    (hkind : m.node.kind = .field) : m.name?.isSome ∧
      (m.isPlain = true → ∃ field, m.field? = some field ∧ m.IsField field) ∧
      (m.isPlain = false → m.field? = none) := by
  obtain ⟨name, hname, hplain⟩ := exists_fieldName h hkind
  have hmember : m.name? = some name := hname
  have hisPlain : m.isPlain = isPlainName name.kind := by
    rw [MemberNode.isPlain, hmember, Option.any_some]
  have hread : m.node.children.find? (fun c => c.kind = .propertyName || c.kind = .privateName) =
      if isPlainName name.kind then some name else none := by
    simp only [isPlainName_eq]
    rw [← List.head?_filter, hplain, List.filter_singleton]
    cases isPlainName name.kind <;> rfl
  refine ⟨by rw [hmember]; rfl, fun htrue => ?_, fun hfalse => ?_⟩
  · rw [hisPlain] at htrue
    rw [htrue, if_pos rfl] at hread
    refine ⟨_, by rw [MemberNode.field?, readField, hread]; rfl, ?_, rfl, rfl, ?_, rfl⟩
    · rw [hmember]
      rfl
    · rw [MemberNode.decorators, List.map_append]
      rfl
  · rw [hisPlain] at hfalse
    rw [hfalse, if_neg Bool.false_ne_true] at hread
    rw [MemberNode.field?, readField, hread]
    rfl

/-- A method that grew from the grammar has a name and is read. -/
theorem readMethod_of_grown (m : MemberNode) (h : m.node.Grown Grammar.rules)
    (hkind : isMethodKind m.node.kind) : m.name?.isSome ∧
      ∃ method, m.method? = some method ∧ m.IsMethod method := by
  obtain ⟨name, hname⟩ := exists_memberName h hkind
  have hmember : m.name? = some name := by
    rw [MemberNode.name?, ← List.head?_filter, hname]
    rfl
  have hnames : m.node.children.filter isMethodName = [name] := by
    rw [← hname]
    exact List.filter_congr fun c _ => isMethodName_eq c
  refine ⟨by rw [hmember]; rfl, _, by rw [MemberNode.method?, readMethod, hnames]; rfl, ?_, ?_, rfl⟩
  · rw [hmember]
    rfl
  · rw [MemberNode.decorators, List.map_append]
    rfl

/-! ## Members of a body -/

/-- What is read of some items is read of those that a test selects, one by one and in order. -/
theorem forall₂_filterMap_filter {α β : Type} {R : α → β → Prop} {test : α → Bool}
    {read : α → Option β} {items : List α}
    (hread : ∀ a ∈ items, test a = true → ∃ b, read a = some b ∧ R a b)
    (hskip : ∀ a ∈ items, test a = false → read a = none) :
    List.Forall₂ R (items.filter test) (items.filterMap read) := by
  induction items with
  | nil => exact .nil
  | cons a rest ih =>
    have ih := ih (fun b hb => hread b (List.mem_cons_of_mem a hb))
      (fun b hb => hskip b (List.mem_cons_of_mem a hb))
    cases htest : test a with
    | true =>
      obtain ⟨b, hb, hR⟩ := hread a List.mem_cons_self htest
      rw [List.filter_cons_of_pos htest, List.filterMap_cons_some hb]
      exact .cons hR ih
    | false =>
      rw [List.filter_cons_of_neg (by simp [htest]),
        List.filterMap_cons_none (hskip a List.mem_cons_self htest)]
      exact ih

theorem forall₂_filterMap_of_forall {α β : Type} {R : α → β → Prop} {read : α → Option β}
    {items : List α} (hread : ∀ a ∈ items, ∃ b, read a = some b ∧ R a b) :
    List.Forall₂ R items (items.filterMap read) := by
  have h := forall₂_filterMap_filter (fun a ha (_ : true = true) => hread a ha)
    fun _ _ hfalse => absurd hfalse (by decide)
  rwa [List.filter_true] at h

section Body

variable {body : Node}

theorem grown_of_mem_fieldNodes (hbody : body.Grown Grammar.rules) {m : MemberNode}
    (h : m ∈ fieldNodes body) : m.node.Grown Grammar.rules ∧ m.node.kind = .field := by
  obtain ⟨hmem, hkind⟩ := mem_of_mem_membersBehind h
  have hkind : m.node.kind = .field := of_decide_eq_true hkind
  exact ⟨hbody.child Grammar.own_isDeclaring hmem (by rw [hkind]; rfl), hkind⟩

theorem grown_of_mem_methodNodes (hbody : body.Grown Grammar.rules) {m : MemberNode}
    (h : m ∈ methodNodes body) : m.node.Grown Grammar.rules ∧ isMethodKind m.node.kind := by
  obtain ⟨hmem, hkind⟩ := mem_of_mem_membersBehind h
  exact ⟨hbody.child Grammar.own_isDeclaring hmem (isDeclaring_of_isMethodKind hkind), hkind⟩

/-- Every member of a class body has a name. -/
theorem isSome_name? (hbody : body.Grown Grammar.rules) {m : MemberNode}
    (h : m ∈ fieldNodes body ++ methodNodes body) : m.name?.isSome := by
  rcases List.mem_append.1 h with h | h
  · obtain ⟨hgrown, hkind⟩ := grown_of_mem_fieldNodes hbody h
    exact (readField_of_grown m hgrown hkind).1
  · obtain ⟨hgrown, hkind⟩ := grown_of_mem_methodNodes hbody h
    exact (readMethod_of_grown m hgrown hkind).1

theorem forall₂_fields (hbody : body.Grown Grammar.rules) (hkind : body.kind = .classBody) :
    List.Forall₂ MemberNode.IsField ((fieldNodes body).filter (·.isPlain))
      (readBody body).fields := by
  rw [(matches_readBody (attached_children hbody hkind)).fields]
  refine forall₂_filterMap_filter (fun m hm => ?_) fun m hm => ?_
  · obtain ⟨hgrown, hkind⟩ := grown_of_mem_fieldNodes hbody hm
    exact (readField_of_grown m hgrown hkind).2.1
  · obtain ⟨hgrown, hkind⟩ := grown_of_mem_fieldNodes hbody hm
    exact (readField_of_grown m hgrown hkind).2.2

theorem forall₂_methods (hbody : body.Grown Grammar.rules) (hkind : body.kind = .classBody) :
    List.Forall₂ MemberNode.IsMethod (methodNodes body) (readBody body).methods := by
  rw [(matches_readBody (attached_children hbody hkind)).methods]
  refine forall₂_filterMap_of_forall fun m hm => ?_
  obtain ⟨hgrown, hkind⟩ := grown_of_mem_methodNodes hbody hm
  exact (readMethod_of_grown m hgrown hkind).2

end Body

/-! ## Classes of a file -/

/-- The nodes of the classes that a statement declares: its own, or those that it exports. -/
def classNodesOf (n : Node) : List Node :=
  if isClass n then [n]
  else if n.kind = .exportStatement then n.children.filter isClass
  else []

/-- The nodes of the classes at the top level of a file. -/
def classNodes (tree : Node) : List Node := tree.children.flatMap classNodesOf

/-- What a class with a body is read as: every member has a name, the methods are read one by one,
and so are the fields that are named by no key. -/
structure ClassReading (n body : Node) (c : SourceClass) : Prop where
  span : c.span = n.span
  bodies : n.children.filter (·.kind = .classBody) = [body]
  named : ∀ m ∈ fieldNodes body ++ methodNodes body, m.name?.isSome
  fields : List.Forall₂ MemberNode.IsField ((fieldNodes body).filter (·.isPlain)) c.fields
  methods : List.Forall₂ MemberNode.IsMethod (methodNodes body) c.methods

theorem isClass_eq (n : Node) : isClass n = isClassKind n.kind := by
  unfold isClass
  generalize n.kind = kind
  cases kind <;> rfl

/-- A class that grew from the grammar is read with the members of its body. -/
theorem exists_readClass {n : Node} (h : n.Grown Grammar.rules) (hclass : isClass n)
    (exported : Bool) (pending : List Decorator) :
    ∃ c, readClass exported pending n = some c ∧ ∃ body, ClassReading n body c := by
  have hkind : isClassKind n.kind := by rwa [← isClass_eq]
  obtain ⟨name, hname⟩ := exists_typeName h hkind
  obtain ⟨body, hbody⟩ := exists_classBody h hkind
  obtain ⟨hmem, hbodyKind⟩ := List.mem_filter.1 (hbody ▸ List.mem_singleton_self body)
  have hbodyKind : body.kind = .classBody := of_decide_eq_true hbodyKind
  have hgrown : body.Grown Grammar.rules :=
    h.child Grammar.own_isDeclaring hmem (by rw [hbodyKind]; rfl)
  refine ⟨_, by rw [readClass, hname, hbody]; rfl, body, rfl, hbody, ?_, ?_, ?_⟩
  · exact fun m => isSome_name? hgrown
  · exact forall₂_fields hgrown hbodyKind
  · exact forall₂_methods hgrown hbodyKind

theorem forall₂_classesOf {n : Node} (h : isDeclaring n.kind → n.Grown Grammar.rules) :
    List.Forall₂ (fun n c => ∃ body, ClassReading n body c) (classNodesOf n) (classesOf n) := by
  have hdeclaring (child : Node) (hclass : isClass child) : isDeclaring child.kind :=
    isDeclaring_of_isClassKind (by rwa [← isClass_eq])
  unfold classNodesOf classesOf
  split
  · rename_i hclass
    obtain ⟨c, hread, hc⟩ := exists_readClass (h (hdeclaring n hclass)) hclass false []
    rw [hread]
    exact .cons hc .nil
  · split
    · rename_i hexport
      have hchildren : ∀ child ∈ n.children.filter isClass, child.Grown Grammar.rules :=
        fun child hchild => (h (by rw [hexport]; rfl)).child Grammar.own_isDeclaring
          (List.mem_filter.1 hchild).1 (hdeclaring child (List.mem_filter.1 hchild).2)
      exact forall₂_filterMap_of_forall fun child hchild =>
        exists_readClass (hchildren child hchild) (List.mem_filter.1 hchild).2 true _
    · exact .nil

/-- The classes of a file are those at the top level of its tree, one by one and in order. -/
theorem forall₂_classes {text : String} {tree : Node} (path : Path)
    (h : Syntax.parse? text.toList = some tree) :
    List.Forall₂ (fun n c => ∃ body, ClassReading n body c) (classNodes tree)
      (ofTree path text tree).classes :=
  forall₂_flatMap fun _ hchild => forall₂_classesOf (grown_of_parse? h hchild)

end DaoGen.Source
