import DaoGen.Proofs.Syntax.Tree
import DaoGen.Proofs.Syntax.Words
set_option autoImplicit false

/-!
# What grows from the grammar

The nodes of a sound derivation are those that the rules of the grammar let grow: a token gives its
leaf, a phrase the nodes of the atoms of one of its words with comments in between, and a repetition
those of its rounds (`Derivation.Sound.grows`).  So what can be seen on the words of a rule holds of
the nodes of every tree.
-/

namespace DaoGen.Syntax

/-! ## Growth -/

/-- The nodes of a part with some nodes below it: one of the kind of the part or of its phrase, or
the nodes below in the role of the part. -/
def Part.gather (part : Part) (kind : Option Kind) (inner : List Node) : List Node :=
  match part.kind <|> kind with
  | some kind => [.branch part.role kind inner]
  | none => if part.role = .plain then inner else Node.assign part.role inner

/-- Some nodes in a row: those of an atom, or comments between two atoms. -/
structure Piece where
  step : Option (Atom × Part)
  nodes : List Node

/-- The word that some pieces are made of. -/
def wordOf (pieces : List Piece) : Word := pieces.filterMap (·.step)

/-- The nodes of some pieces. -/
def nodesIn (pieces : List Piece) : List Node := pieces.flatMap (·.nodes)

/-- The nodes that an atom grows to as a part of a node. -/
inductive Grows (rules : List Rule) : Atom → Part → List Node → Prop
  | empty (t : Token) (part : Part) (isEmpty : t.isEmpty = true) : Grows rules (.token t) part []
  | leaf (t : Token) (part : Part) (before : List Char) (start : Text.Position) (text : List Char)
      (isEmpty : t.isEmpty = false) :
      Grows rules (.token t) part [.leaf part.role (part.kind.getD t.kind) before start text]
  | phrase (rule : Rule) (mem : rule ∈ rules) (part : Part) (pieces : List Piece)
      (word : wordOf pieces ∈ rule.2.words)
      (comments : ∀ piece ∈ pieces, piece.step = none → ∀ n ∈ piece.nodes, n.isComment = true)
      (grows : ∀ piece ∈ pieces, ∀ x inner, piece.step = some (x, inner) →
        Grows rules x inner piece.nodes) :
      Grows rules (.phrase rule.1) part (part.gather rule.1.kind? (nodesIn pieces))
  | repeated (form : Form) (mem : form ∈ Form.repetitionsOf (rules.map (·.2))) (part : Part)
      (pieces : List Piece) (word : wordOf pieces ∈ form.rounds)
      (comments : ∀ piece ∈ pieces, piece.step = none → ∀ n ∈ piece.nodes, n.isComment = true)
      (grows : ∀ piece ∈ pieces, ∀ x inner, piece.step = some (x, inner) →
        Grows rules x inner piece.nodes) :
      Grows rules (.repeated form) part (part.gather none (nodesIn pieces))

/-- Pieces that a word grows to. -/
structure IsRow (rules : List Rule) (word : Word) (pieces : List Piece) : Prop where
  spells : wordOf pieces = word
  comments : ∀ piece ∈ pieces, piece.step = none → ∀ n ∈ piece.nodes, n.isComment = true
  grows : ∀ piece ∈ pieces, ∀ x inner, piece.step = some (x, inner) →
    Grows rules x inner piece.nodes

section Growth

variable {rules : List Rule}

@[simp]
theorem nodesIn_nil : nodesIn [] = [] := rfl

@[simp]
theorem nodesIn_cons (piece : Piece) (pieces : List Piece) :
    nodesIn (piece :: pieces) = piece.nodes ++ nodesIn pieces := rfl

theorem mem_wordOf {pieces : List Piece} {piece : Piece} (h : piece ∈ pieces) {step : Atom × Part}
    (hstep : piece.step = some step) : step ∈ wordOf pieces :=
  List.mem_filterMap.2 ⟨piece, h, hstep⟩

/-- A node in a row is a comment, or one of an atom of the word. -/
theorem exists_step_of_mem_nodesIn {pieces : List Piece}
    (hcomments : ∀ piece ∈ pieces, piece.step = none → ∀ n ∈ piece.nodes, n.isComment = true)
    {n : Node} (h : n ∈ nodesIn pieces) : n.kind = .comment ∨
      ∃ step ∈ wordOf pieces, ∃ piece ∈ pieces, piece.step = some step ∧ n ∈ piece.nodes := by
  obtain ⟨piece, hpiece, hn⟩ := List.mem_flatMap.1 h
  cases hstep : piece.step with
  | none => exact .inl (of_decide_eq_true (hcomments piece hpiece hstep n hn))
  | some step => exact .inr ⟨step, mem_wordOf hpiece hstep, piece, hpiece, hstep, hn⟩

namespace IsRow

variable {word : Word} {pieces : List Piece} {nodes : List Node}

theorem nil : IsRow rules [] [] := ⟨rfl, by simp, by simp⟩

theorem comment (h : IsRow rules word pieces) (hcomments : ∀ n ∈ nodes, n.isComment = true) :
    IsRow rules word (⟨none, nodes⟩ :: pieces) where
  spells := h.spells
  comments := by
    intro piece hpiece hnone
    rcases List.mem_cons.1 hpiece with rfl | hpiece
    · exact hcomments
    · exact h.comments piece hpiece hnone
  grows := by
    intro piece hpiece x inner hstep
    rcases List.mem_cons.1 hpiece with rfl | hpiece
    · cases hstep
    · exact h.grows piece hpiece x inner hstep

theorem step {x : Atom} {part : Part} (h : IsRow rules word pieces)
    (hgrows : Grows rules x part nodes) :
    IsRow rules ((x, part) :: word) (⟨some (x, part), nodes⟩ :: pieces) where
  spells := congrArg (List.cons (x, part)) h.spells
  comments := by
    intro piece hpiece hnone
    rcases List.mem_cons.1 hpiece with rfl | hpiece
    · cases hnone
    · exact h.comments piece hpiece hnone
  grows := by
    intro piece hpiece y inner hstep
    rcases List.mem_cons.1 hpiece with rfl | hpiece
    · cases hstep
      exact hgrows
    · exact h.grows piece hpiece y inner hstep

end IsRow

/-! ## Symbols of atoms -/

/-- An atom of some rules. -/
def Atom.IsOf (rules : List Rule) (x : Atom) : Prop :=
  x.IsAmong (Form.tokensOf (rules.map (·.2))) (Form.repetitionsOf (rules.map (·.2)))

theorem tokens_subset_tokensOf {forms : List Form} {form : Form} (h : form ∈ forms) :
    form.tokens ⊆ Form.tokensOf forms ∧ form.repetitions ⊆ Form.repetitionsOf forms := by
  induction forms with
  | nil => cases h
  | cons first rest ih =>
    rw [Form.tokensOf, Form.repetitionsOf]
    rcases List.mem_cons.1 h with rfl | h
    · exact ⟨List.subset_append_left _ _, List.subset_append_left _ _⟩
    · exact ⟨List.Subset.trans (ih h).1 (List.subset_append_right _ _),
        List.Subset.trans (ih h).2 (List.subset_append_right _ _)⟩

theorem isOf_of_mem_rule {rule : Rule} (hrule : rule ∈ rules) {word : Word}
    (hword : word ∈ rule.2.words) : ∀ step ∈ word, step.1.IsOf rules := by
  intro step hstep
  obtain ⟨htokens, hrepetitions⟩ := tokens_subset_tokensOf (List.mem_map_of_mem hrule)
  have hatom := mem_atoms_of_mem_words rule.2 word hword step hstep
  exact (isAmong_of_mem_atoms rule.2 step hatom).mono htokens hrepetitions

theorem isOf_of_mem_rounds {form : Form} (hform : form ∈ Form.repetitionsOf (rules.map (·.2)))
    {word : Word} (hword : word ∈ form.rounds) : ∀ step ∈ word, step.1.IsOf rules := by
  intro step hstep
  obtain ⟨htokens, hrepetitions⟩ := subset_of_mem_repetitionsOf _ form hform
  rcases eq_or_mem_atoms_of_mem_rounds hword hstep with rfl | hatom
  · exact hform
  · exact (isAmong_of_mem_atoms form step hatom).mono htokens hrepetitions

/-- A phrase and a repetition have no symbol in common, nor two phrases. -/
theorem eq_phrase_of_symbolOf {q : Phrase} {x : Atom}
    (h : .phrase q.number = (Alphabet.ofRules rules).symbolOf x) : x = .phrase q := by
  cases x with
  | token t => cases h
  | phrase other => rw [Phrase.number_injective (Symbol.phrase.inj h)]
  | repeated form =>
    have hnumber := Symbol.phrase.inj h
    have hless := q.number_lt
    omega

/-- Repetitions of different forms have different symbols. -/
theorem eq_repeated_of_symbolOf {form : Form}
    (hform : form ∈ Form.repetitionsOf (rules.map (·.2))) {x : Atom} (hx : x.IsOf rules)
    (h : (Alphabet.ofRules rules).repetition form = (Alphabet.ofRules rules).symbolOf x) :
    x = .repeated form := by
  cases x with
  | token t => cases h
  | phrase p => exact absurd (eq_phrase_of_symbolOf (x := .repeated form) h.symm) (by simp)
  | repeated other =>
    have hindex := Nat.add_left_cancel (Symbol.phrase.inj h)
    rw [Alphabet.repetitions_ofRules] at hindex
    rw [(List.idxOf_inj (mem_distinct_of_mem hform)).1 hindex]

/-! ## Nodes of sound derivations -/

namespace Derivation

theorem nodes_branch (part : Part) (number : Nat) (kind : Option Kind) (weight : Int)
    (parts : List Part) (children : List Derivation) :
    nodes part (.branch number kind weight parts children) =
      part.gather kind (nodesOf parts children) := by
  rw [nodes]
  rfl

/-- The nodes below a phrase are those of pieces: one for each comment and each atom. -/
theorem exists_pieces {parts : List Part} {children : List Derivation} {word : Word}
    (hlength : (symbols children).length = parts.length)
    (hsteps : (Alphabet.ofRules rules).stepsOf word = (symbols children).zip parts)
    (hcomments : ∀ child ∈ children, child.isExtra → ∀ n ∈ child.nodes {}, n.isComment = true)
    (hgrows : ∀ child ∈ children, ∀ x, x.IsOf rules →
      child.symbol = (Alphabet.ofRules rules).symbolOf x → ∀ part,
        Grows rules x part (child.nodes part))
    (hword : ∀ step ∈ word, step.1.IsOf rules) :
    ∃ pieces, IsRow rules word pieces ∧ nodesIn pieces = nodesOf parts children := by
  induction children generalizing parts word with
  | nil =>
    have hnil : word = [] := List.map_eq_nil_iff.1 hsteps
    subst hnil
    exact ⟨[], .nil, by rw [nodesOf]; rfl⟩
  | cons first rest ih =>
    have ih := fun parts word hlength hsteps hword => @ih parts word hlength hsteps
      (fun child hchild => hcomments child (List.mem_cons_of_mem _ hchild))
      (fun child hchild => hgrows child (List.mem_cons_of_mem _ hchild)) hword
    -- A comment takes no part and no step of the word, any other child takes one of each.
    cases hextra : first.isExtra with
    | true =>
      have hsymbols : symbols (first :: rest) = symbols rest := by simp [symbols, hextra]
      rw [hsymbols] at hlength hsteps
      obtain ⟨pieces, hrow, hnodes⟩ := ih _ _ hlength hsteps hword
      refine ⟨_, hrow.comment (hcomments first List.mem_cons_self hextra), ?_⟩
      rw [nodesIn_cons, hnodes, nodesOf_cons_of_isExtra hextra]
    | false =>
      have hsymbols : symbols (first :: rest) = first.symbol :: symbols rest := by
        simp [symbols, hextra]
      rw [hsymbols] at hlength hsteps
      cases parts with
      | nil => cases hlength
      | cons part parts =>
        rw [List.length_cons, List.length_cons, Nat.add_right_cancel_iff] at hlength
        rw [List.zip_cons_cons] at hsteps
        cases word with
        | nil => cases hsteps
        | cons step word =>
          obtain ⟨x, inner⟩ := step
          obtain ⟨hfirst, hrest⟩ := List.cons.inj hsteps
          obtain ⟨hsymbol, rfl⟩ := Prod.mk.inj hfirst
          obtain ⟨pieces, hrow, hnodes⟩ := ih _ _ hlength hrest
            fun step hmem => hword step (List.mem_cons_of_mem _ hmem)
          have hgrown := hgrows first List.mem_cons_self x (hword _ List.mem_cons_self)
            hsymbol.symm inner
          refine ⟨_, hrow.step hgrown, ?_⟩
          rw [nodesIn_cons, hnodes, nodesOf_cons_of_not_isExtra hextra, List.headD_cons,
            List.tail_cons]

/-- A sound derivation of an atom has the nodes that the atom grows to. -/
theorem Sound.grows (hstop : .stop ∉ Form.tokensOf (rules.map (·.2))) {d : Derivation}
    (hd : d.Sound (.ofRules rules) (productionsOf rules)) {x : Atom} (hx : x.IsOf rules)
    (hsymbol : d.symbol = (Alphabet.ofRules rules).symbolOf x) (part : Part) :
    Grows rules x part (d.nodes part) := by
  induction hd generalizing x part with
  | leaf token before start text name =>
    obtain ⟨t, rfl, hnumber⟩ := exists_token_of_symbolOf hsymbol
    have hmem : t ∈ Form.tokensOf (rules.map (·.2)) := hx
    -- Only the end of the text shares its number with other tokens.
    have hother : t ≠ .stop := by
      rintro rfl
      exact hstop hmem
    obtain rfl := Alphabet.eq_of_number_eq (mem_distinct_of_mem (List.mem_append_right _ hmem))
      hother hnumber
    rw [nodes]
    split
    · rename_i hempty
      exact .empty token part hempty
    · rename_i hempty
      rw [place_leaf]
      exact .leaf token part before start text (Bool.eq_false_iff.2 hempty)
  | branch p weight parts children mem length steps sound ih =>
    rw [nodes_branch]
    have hcomments : ∀ child ∈ children, child.isExtra →
        ∀ n ∈ child.nodes {}, n.isComment = true := by
      intro child hchild hextra n hn
      exact decide_eq_true ((sound child hchild).isComment_of_isExtra hextra hn).1
    rcases exists_word_of_mem_productions mem with
      ⟨rule, hrule, hhead, hkind, word, hword, hof⟩ | ⟨form, hform, hhead, hkind, word, hword, hof⟩
    · have hatom : x = .phrase rule.1 := eq_phrase_of_symbolOf (by rw [← hhead]; exact hsymbol)
      obtain ⟨pieces, ⟨rfl, hbetween, hgrown⟩, hnodes⟩ := exists_pieces length (hof ▸ steps)
        hcomments (fun child hchild x hx hsymbol part => ih child hchild hx hsymbol part)
        (isOf_of_mem_rule hrule hword)
      rw [hatom, hkind, ← hnodes]
      exact .phrase rule hrule part pieces hword hbetween hgrown
    · have hform : form ∈ Form.repetitionsOf (rules.map (·.2)) := by
        rw [Alphabet.repetitions_ofRules] at hform
        exact mem_of_mem_distinct hform
      have hatom : x = .repeated form := eq_repeated_of_symbolOf hform hx (hhead ▸ hsymbol)
      obtain ⟨pieces, ⟨rfl, hbetween, hgrown⟩, hnodes⟩ := exists_pieces length (hof ▸ steps)
        hcomments (fun child hchild x hx hsymbol part => ih child hchild hx hsymbol part)
        (isOf_of_mem_rounds hform hword)
      rw [hatom, hkind, ← hnodes]
      exact .repeated form hform part pieces hword hbetween hgrown

end Derivation

end Growth

end DaoGen.Syntax
