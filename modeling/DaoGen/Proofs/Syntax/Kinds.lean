import DaoGen.Proofs.Syntax.Growth
set_option autoImplicit false

/-!
# Kinds of nodes and the words of rules

Which kinds of nodes an atom grows to can be seen on the atom: a token and a phrase with nodes of
its own give one node of a known kind, and a phrase without gives what its rule does.  So a test of
the steps of a word tells that a row of nodes has none of some kinds (`IsRow.shuns`), or exactly one
(`IsRow.filter_eq`), and where a node of a kind comes from (`Grows.grown`).
-/

namespace DaoGen.Syntax

namespace Node

theorem kind_withRole (role : Role) (n : Node) : (n.withRole role).kind = n.kind := by
  cases n <;> rfl

theorem children_withRole (role : Role) (n : Node) : (n.withRole role).children = n.children := by
  cases n <;> rfl

/-- A role changes neither the kinds of nodes nor what is below them. -/
theorem exists_of_mem_gather {part : Part} {inner : List Node} {n : Node} (hkind : part.kind = none)
    (hn : n ∈ part.gather none inner) :
    ∃ m ∈ inner, m.kind = n.kind ∧ m.children = n.children := by
  unfold Part.gather at hn
  rw [hkind] at hn
  dsimp only [HOrElse.hOrElse, OrElse.orElse, Option.orElse] at hn
  split at hn
  · exact ⟨n, hn, rfl, rfl⟩
  · rcases exists_of_mem_assign hn with ⟨hn, -⟩ | ⟨m, hm, -, rfl⟩
    · exact ⟨n, hn, rfl, rfl⟩
    · exact ⟨m, hm, (kind_withRole _ m).symm, (children_withRole _ m).symm⟩

/-- A node with the children of a word of the rule of its kind. -/
def Grown (rules : List Rule) (n : Node) : Prop :=
  ∃ rule ∈ rules, rule.1.kind? = some n.kind ∧
    ∃ word ∈ rule.2.words, ∃ pieces, IsRow rules word pieces ∧ n.children = nodesIn pieces

theorem Grown.congr {rules : List Rule} {m n : Node} (h : m.Grown rules) (hkind : m.kind = n.kind)
    (hchildren : m.children = n.children) : n.Grown rules := by
  rw [Grown, hkind, hchildren] at h
  exact h

end Node

theorem gather_of_kind {part : Part} {kind : Option Kind} {inner : List Node} {k : Kind}
    (h : (part.kind <|> kind) = some k) : part.gather kind inner = [.branch part.role k inner] := by
  unfold Part.gather
  rw [h]

/-! ## Rows -/

namespace IsRow

variable {rules : List Rule} {word : Word} {piece : Piece} {pieces : List Piece}

theorem of_comment (h : IsRow rules word (piece :: pieces)) (hstep : piece.step = none) :
    IsRow rules word pieces where
  spells := by
    rw [← h.spells, wordOf, wordOf, List.filterMap_cons_none hstep]
  comments other hother := h.comments other (List.mem_cons_of_mem _ hother)
  grows other hother := h.grows other (List.mem_cons_of_mem _ hother)

theorem of_step (h : IsRow rules word (piece :: pieces)) {step : Atom × Part}
    (hstep : piece.step = some step) : ∃ rest, word = step :: rest ∧
      Grows rules step.1 step.2 piece.nodes ∧ IsRow rules rest pieces := by
  refine ⟨wordOf pieces, ?_, h.grows piece List.mem_cons_self step.1 step.2 hstep, rfl,
    fun other hother => h.comments other (List.mem_cons_of_mem _ hother),
    fun other hother => h.grows other (List.mem_cons_of_mem _ hother)⟩
  rw [← h.spells, wordOf, List.filterMap_cons_some hstep]
  rfl

end IsRow

section Tests

variable {rules : List Rule} {x : Atom} {part : Part} {nodes : List Node} {word : Word}
  {pieces : List Piece}

/-! ## Kinds that no step has -/

section Shuns

variable (K : Kind → Bool) (hidden : Phrase → Bool)

/-- An atom that gives no node of some kinds.  Of the phrases without nodes of their own it has to
be known which ones give none. -/
def shunsAtom : Atom → Bool
  | .token t => !K t.kind
  | .phrase p =>
    match p.kind? with
    | some kind => !K kind
    | none => hidden p
  | .repeated _ => false

/-- A step that gives no node of some kinds and repeats nothing. -/
def shunsOnce (step : Atom × Part) : Bool :=
  match step.2.kind with
  | some kind => !K kind
  | none => shunsAtom K hidden step.1

/-- A step that gives no node of some kinds, however often it repeats what it reads. -/
def shuns (step : Atom × Part) : Bool :=
  match step.2.kind, step.1 with
  | some kind, _ => !K kind
  | none, .repeated form => form.atoms.all (shunsOnce K hidden)
  | none, x => shunsAtom K hidden x

variable {K hidden}

theorem shuns_of_shunsOnce {step : Atom × Part} (h : shunsOnce K hidden step) :
    shuns K hidden step := by
  obtain ⟨x, role, kind⟩ := step
  cases kind with
  | some kind => exact h
  | none =>
    cases x with
    | token t => exact h
    | phrase p => exact h
    | repeated form => cases h

/-- Kinds of nodes that certain phrases without nodes of their own do not give. -/
structure Shut (rules : List Rule) (K : Kind → Bool) (hidden : Phrase → Bool) : Prop where
  comment : K .comment = false
  atoms : ∀ rule ∈ rules, hidden rule.1 → ∀ step ∈ rule.2.atoms, shuns K hidden step

/-- What shuns some kinds grows to nodes of other kinds. -/
theorem Grows.shuns (hshut : Shut rules K hidden) (h : Grows rules x part nodes)
    (hshuns : DaoGen.Syntax.shuns K hidden (x, part)) : ∀ n ∈ nodes, K n.kind = false := by
  induction h with
  | empty => simp
  | leaf t part before start text =>
    intro n hn
    rw [List.mem_singleton.1 hn]
    obtain ⟨role, kind⟩ := part
    cases kind <;> simpa [DaoGen.Syntax.shuns, shunsAtom, Node.kind] using hshuns
  | phrase rule mem part pieces word comments grows ih =>
    obtain ⟨role, kind⟩ := part
    intro n hn
    cases kind with
    | some kind =>
      rw [gather_of_kind rfl, List.mem_singleton] at hn
      rw [hn]
      simpa [DaoGen.Syntax.shuns, Node.kind] using hshuns
    | none =>
      cases hown : rule.1.kind? with
      | some kind =>
        rw [hown, gather_of_kind rfl, List.mem_singleton] at hn
        rw [hn]
        simpa [DaoGen.Syntax.shuns, shunsAtom, hown, Node.kind] using hshuns
      | none =>
        rw [hown] at hn
        obtain ⟨m, hm, hkind, -⟩ := Node.exists_of_mem_gather rfl hn
        rw [← hkind]
        have hrule : hidden rule.1 := by
          simpa [DaoGen.Syntax.shuns, shunsAtom, hown] using hshuns
        rcases exists_step_of_mem_nodesIn comments hm with
          hcomment | ⟨step, hmem, piece, hpiece, hstep, hm⟩
        · rw [hcomment]
          exact hshut.comment
        · have hatom := mem_atoms_of_mem_words _ _ word step hmem
          exact ih piece hpiece step.1 step.2 hstep (hshut.atoms rule mem hrule step hatom) m hm
  | repeated form mem part pieces word comments grows ih =>
    obtain ⟨role, kind⟩ := part
    intro n hn
    cases kind with
    | some kind =>
      rw [gather_of_kind rfl, List.mem_singleton] at hn
      rw [hn]
      simpa [DaoGen.Syntax.shuns, Node.kind] using hshuns
    | none =>
      obtain ⟨m, hm, hkind, -⟩ := Node.exists_of_mem_gather rfl hn
      rw [← hkind]
      rcases exists_step_of_mem_nodesIn comments hm with
        hcomment | ⟨step, hmem, piece, hpiece, hstep, hm⟩
      · rw [hcomment]
        exact hshut.comment
      · refine ih piece hpiece step.1 step.2 hstep ?_ m hm
        rcases eq_or_mem_atoms_of_mem_rounds word hmem with rfl | hatom
        · exact hshuns
        · exact shuns_of_shunsOnce (List.all_eq_true.1 hshuns step hatom)

theorem filter_eq_nil_of_kind {K : Kind → Bool} {nodes : List Node}
    (h : ∀ n ∈ nodes, K n.kind = false) : nodes.filter (fun n => K n.kind) = [] :=
  List.filter_eq_nil_iff.2 fun n hn => by simp [h n hn]

/-- A row of steps that all shun some kinds has no node of them. -/
theorem IsRow.shuns (hshut : Shut rules K hidden) (h : IsRow rules word pieces)
    (hword : ∀ step ∈ word, DaoGen.Syntax.shuns K hidden step) :
    ∀ n ∈ nodesIn pieces, K n.kind = false := by
  intro n hn
  rcases exists_step_of_mem_nodesIn h.comments hn with
    hcomment | ⟨step, hmem, piece, hpiece, hstep, hn⟩
  · rw [hcomment]
    exact hshut.comment
  · rw [h.spells] at hmem
    exact (h.grows piece hpiece step.1 step.2 hstep).shuns hshut (hword step hmem) n hn

end Shuns

/-! ## One node of a kind -/

/-- A step that gives one node, of some kinds. -/
def gives (K : Kind → Bool) (step : Atom × Part) : Bool :=
  match step.1 with
  | .token t => !t.isEmpty && K (step.2.kind.getD t.kind)
  | .phrase p => (step.2.kind <|> p.kind?).any K
  | .repeated _ => step.2.kind.any K

theorem Grows.exists_of_gives {K : Kind → Bool} (h : Grows rules x part nodes)
    (hgives : gives K (x, part)) : ∃ n, nodes = [n] ∧ K n.kind = true := by
  have hgather : ∀ kind inner, (part.kind <|> kind).any K →
      ∃ n, part.gather kind inner = [n] ∧ K n.kind = true := by
    intro kind inner hany
    obtain ⟨k, hk, hK⟩ := (Option.any_eq_true _ _).1 hany
    exact ⟨.branch part.role k inner, gather_of_kind hk, hK⟩
  cases h with
  | empty t _ isEmpty =>
    rw [gives, Bool.and_eq_true, isEmpty] at hgives
    cases hgives.1
  | leaf t _ before start text isEmpty =>
    rw [gives, Bool.and_eq_true] at hgives
    exact ⟨_, rfl, hgives.2⟩
  | phrase rule mem _ pieces => exact hgather _ _ hgives
  | repeated form mem _ pieces =>
    have hnone : (part.kind <|> none) = part.kind := by cases part.kind <;> rfl
    exact hgather _ _ (hnone.symm ▸ hgives)

/-- A word with a step of its own between steps of two other sorts. -/
def isSplit (before : Atom × Part → Bool) (target : Atom × Part → Bool)
    (after : Atom × Part → Bool) (word : Word) : Bool :=
  match word.dropWhile before with
  | [] => false
  | step :: rest => target step && rest.all after

theorem exists_split {before target after : Atom × Part → Bool}
    (h : isSplit before target after word) : ∃ first x part last, word = first ++ (x, part) :: last ∧
      (∀ step ∈ first, before step) ∧ target (x, part) ∧ ∀ step ∈ last, after step := by
  unfold isSplit at h
  split at h
  · cases h
  · rename_i step rest hdrop
    obtain ⟨htarget, hrest⟩ := Bool.and_eq_true_iff.1 h
    refine ⟨word.takeWhile before, step.1, step.2, rest, ?_, ?_, htarget, List.all_eq_true.1 hrest⟩
    · rw [← hdrop, List.takeWhile_append_dropWhile]
    · exact fun step hstep => List.mem_takeWhile_imp hstep

/-- The nodes of a row around one of its steps. -/
theorem IsRow.split {first last : Word} (h : IsRow rules (first ++ (x, part) :: last) pieces) :
    ∃ before nodes after, IsRow rules first before ∧ Grows rules x part nodes ∧
      IsRow rules last after ∧ nodesIn pieces = nodesIn before ++ nodes ++ nodesIn after := by
  induction pieces generalizing first with
  | nil => exact absurd h.spells (by simp [wordOf])
  | cons piece rest ih =>
    cases hstep : piece.step with
    | none =>
      obtain ⟨before, nodes, after, hbefore, hnodes, hafter, heq⟩ := ih (h.of_comment hstep)
      refine ⟨_, nodes, after, hbefore.comment (h.comments piece List.mem_cons_self hstep), hnodes,
        hafter, ?_⟩
      rw [nodesIn_cons, nodesIn_cons, heq, List.append_assoc, List.append_assoc,
        List.append_assoc]
    | some step =>
      obtain ⟨word, hword, hgrows, hrest⟩ := h.of_step hstep
      cases first with
      | nil =>
        obtain ⟨rfl, rfl⟩ := List.cons.inj hword
        exact ⟨[], piece.nodes, rest, .nil, hgrows, hrest, rfl⟩
      | cons other first =>
        obtain ⟨rfl, rfl⟩ := List.cons.inj hword
        obtain ⟨before, nodes, after, hbefore, hnodes, hafter, heq⟩ := ih hrest
        refine ⟨_, nodes, after, hbefore.step hgrows, hnodes, hafter, ?_⟩
        rw [nodesIn_cons, nodesIn_cons, heq, List.append_assoc, List.append_assoc,
          List.append_assoc]

/-- What a phrase grows to comes from a word of its rule. -/
theorem Grows.exists_row {q : Phrase} (h : Grows rules (.phrase q) part nodes) :
    ∃ rule ∈ rules, rule.1 = q ∧ ∃ word ∈ rule.2.words, ∃ pieces, IsRow rules word pieces ∧
      nodes = part.gather q.kind? (nodesIn pieces) := by
  generalize hx : Atom.phrase q = x at h
  cases h with
  | empty => cases hx
  | leaf => cases hx
  | repeated => cases hx
  | phrase rule mem _ pieces word comments grows =>
    obtain rfl : q = rule.1 := Atom.phrase.inj hx
    exact ⟨rule, mem, rfl, _, word, pieces, ⟨rfl, comments, grows⟩, rfl⟩

/-- The nodes of some kinds in a row of which one step gives them. -/
theorem IsRow.filter_eq {K : Kind → Bool} {hidden : Phrase → Bool} (hshut : Shut rules K hidden)
    {target : Atom × Part → Bool} (h : IsRow rules word pieces)
    (hword : isSplit (DaoGen.Syntax.shuns K hidden) target (DaoGen.Syntax.shuns K hidden) word) :
    ∃ x part nodes, target (x, part) ∧ Grows rules x part nodes ∧
      (nodesIn pieces).filter (fun n => K n.kind) = nodes.filter fun n => K n.kind := by
  obtain ⟨first, x, part, last, rfl, hfirst, htarget, hlast⟩ := exists_split hword
  obtain ⟨before, nodes, after, hbefore, hnodes, hafter, heq⟩ := h.split
  refine ⟨x, part, nodes, htarget, hnodes, ?_⟩
  rw [heq, List.filter_append, List.filter_append,
    filter_eq_nil_of_kind (hbefore.shuns hshut hfirst),
    filter_eq_nil_of_kind (hafter.shuns hshut hlast), List.nil_append, List.append_nil]

/-! ## Where nodes of a kind come from -/

/-- Kinds that neither a token nor a step of a rule gives. -/
structure Own (rules : List Rule) (own : Kind → Bool) : Prop where
  rule : ∀ rule ∈ rules, ∀ step ∈ rule.2.atoms, step.2.kind.all (!own ·)
  repeated : ∀ form ∈ Form.repetitionsOf (rules.map (·.2)), ∀ step ∈ form.atoms,
    step.2.kind.all (!own ·)
  token : ∀ t : Token, own t.kind = false
  comment : own .comment = false

/-- A node of such a kind has the children of its phrase. -/
theorem Grows.grown {own : Kind → Bool} (hown : Own rules own) (h : Grows rules x part nodes)
    (hpart : part.kind.all (!own ·)) : ∀ n ∈ nodes, own n.kind → n.Grown rules := by
  have hstepKind : ∀ (role : Role) (kind : Kind) (inner : List Node) (n : Node),
      (some kind).all (!own ·) → n ∈ [Node.branch role kind inner] → own n.kind → False := by
    intro role kind inner n hall hn htrue
    rw [List.mem_singleton.1 hn] at htrue
    have hfalse : own kind = false := by simpa using hall
    exact Bool.false_ne_true (hfalse.symm.trans htrue)
  induction h with
  | empty => simp
  | leaf t part before start text =>
    intro n hn htrue
    rw [List.mem_singleton.1 hn] at htrue
    have hfalse : own (part.kind.getD t.kind) = false := by
      cases hkind : part.kind with
      | none => exact hown.token t
      | some kind => simpa [hkind] using hpart
    exact absurd (hfalse.symm.trans htrue) Bool.false_ne_true
  | phrase rule mem part pieces word comments grows ih =>
    intro n hn htrue
    cases hkind : part.kind with
    | some kind =>
      rw [gather_of_kind (by rw [hkind]; rfl)] at hn
      exact (hstepKind _ _ _ n (hkind ▸ hpart) hn htrue).elim
    | none =>
      cases hrule : rule.1.kind? with
      | some kind =>
        rw [gather_of_kind (by rw [hkind, hrule]; rfl), List.mem_singleton] at hn
        subst hn
        exact ⟨rule, mem, hrule, _, word, pieces, ⟨rfl, comments, grows⟩, rfl⟩
      | none =>
        rw [hrule] at hn
        obtain ⟨m, hm, hsame, hchildren⟩ := Node.exists_of_mem_gather hkind hn
        rcases exists_step_of_mem_nodesIn comments hm with
          hcomment | ⟨step, hmem, piece, hpiece, hstep, hm⟩
        · rw [← hsame, hcomment, hown.comment] at htrue
          cases htrue
        · have hatom := mem_atoms_of_mem_words _ _ word step hmem
          have hgrown : m.Grown rules := ih piece hpiece step.1 step.2 hstep
            (hown.rule rule mem step hatom) m hm (hsame ▸ htrue)
          exact hgrown.congr hsame hchildren
  | repeated form mem part pieces word comments grows ih =>
    intro n hn htrue
    cases hkind : part.kind with
    | some kind =>
      rw [gather_of_kind (by rw [hkind]; rfl)] at hn
      exact (hstepKind _ _ _ n (hkind ▸ hpart) hn htrue).elim
    | none =>
      obtain ⟨m, hm, hsame, hchildren⟩ := Node.exists_of_mem_gather hkind hn
      rcases exists_step_of_mem_nodesIn comments hm with
        hcomment | ⟨step, hmem, piece, hpiece, hstep, hm⟩
      · rw [← hsame, hcomment, hown.comment] at htrue
        cases htrue
      · have hinner : step.2.kind.all (!own ·) := by
          rcases eq_or_mem_atoms_of_mem_rounds word hmem with rfl | hatom
          · rfl
          · exact hown.repeated form mem step hatom
        have hgrown : m.Grown rules :=
          ih piece hpiece step.1 step.2 hstep hinner m hm (hsame ▸ htrue)
        exact hgrown.congr hsame hchildren

/-- What is below a node that grew by itself did so too. -/
theorem Node.Grown.child {own : Kind → Bool} (hown : Own rules own) {n child : Node}
    (h : n.Grown rules) (hchild : child ∈ n.children) (htrue : own child.kind) :
    child.Grown rules := by
  obtain ⟨rule, hrule, -, word, hword, pieces, hrow, hchildren⟩ := h
  rw [hchildren] at hchild
  rcases exists_step_of_mem_nodesIn hrow.comments hchild with
    hcomment | ⟨step, hmem, piece, hpiece, hstep, hchild⟩
  · rw [hcomment, hown.comment] at htrue
    cases htrue
  · rw [hrow.spells] at hmem
    have hatom := mem_atoms_of_mem_words _ _ hword step hmem
    exact (hrow.grows piece hpiece step.1 step.2 hstep).grown hown
      (hown.rule rule hrule step hatom) child hchild htrue

/-- A node of a sound derivation of such a kind has the children of its phrase. -/
theorem Derivation.Sound.grown {own : Kind → Bool} (hown : Own rules own)
    (hstop : .stop ∉ Form.tokensOf (rules.map (·.2))) {d : Derivation}
    (hd : d.Sound (.ofRules rules) (productionsOf rules)) {n : Node} (hn : n ∈ d.nodes {})
    (htrue : own n.kind) : n.Grown rules := by
  have hatom : ∀ x, x.IsOf rules → d.symbol = (Alphabet.ofRules rules).symbolOf x →
      n.Grown rules := by
    intro x hx hsymbol
    exact (hd.grows hstop hx hsymbol {}).grown hown rfl n hn htrue
  cases hd with
  | leaf token before start text =>
    rw [eq_leaf_of_mem_nodes hn] at htrue
    exact absurd ((hown.token token).symm.trans htrue) Bool.false_ne_true
  | branch p weight parts children mem length steps sound =>
    rcases exists_word_of_mem_productions mem with ⟨rule, -, hhead, -⟩ | ⟨form, hform, hhead, -⟩
    · exact hatom (.phrase rule.1) trivial (congrArg Symbol.phrase hhead)
    · refine hatom (.repeated form) ?_ hhead
      rw [Alphabet.repetitions_ofRules] at hform
      exact mem_of_mem_distinct hform

/-- Below the tree of a whole text, nodes of such kinds have the children of their phrases. -/
theorem Derivation.IsWhole.grown {own : Kind → Bool} (hown : Own rules own)
    (hasks : AsksForNames rules) (hstop : .stop ∉ Form.tokensOf (rules.map (·.2)))
    {table : Table} (halphabet : table.alphabet = .ofRules rules) {d : Derivation}
    (hd : d.IsWhole table (productionsOf rules)) {tree child : Node} (htree : tree ∈ d.nodes {})
    (hchild : child ∈ tree.children) (htrue : own child.kind) : child.Grown rules := by
  obtain ⟨p, hp, hhead, weight, children, rfl, hsound⟩ := hd
  rw [halphabet] at hsound
  rcases exists_source_of_mem_productions hp with ⟨rule, hrule, hof⟩ | ⟨form, -, hof⟩
  · have hphrase : rule.1 = .program := Phrase.number_injective (hof.1.symm.trans hhead)
    have hparts : ∀ part ∈ p.steps.map (·.2), part = {} := by
      intro part hpart
      obtain ⟨step, hstep, rfl⟩ := List.mem_map.1 hpart
      obtain ⟨atom, hatom, -⟩ := hof.2.2 step hstep
      exact hasks.program rule hrule hphrase _ hatom
    have hkind : p.kind = some .program := by
      rw [hof.2.1, hphrase]
      rfl
    rw [nodes_branch, hkind, gather_of_kind rfl, List.mem_singleton] at htree
    subst htree
    obtain ⟨inner, hinner, hn⟩ := exists_of_mem_nodesOf hparts hchild
    exact (hsound inner hinner).grown hown hstop hn htrue
  · exact absurd Phrase.program.number_lt (Nat.not_lt.2 (hhead ▸ hof.1))

end Tests

end DaoGen.Syntax
