import DaoGen.Proofs.Syntax.NameRules
import DaoGen.Proofs.Syntax.Parse
set_option autoImplicit false

/-!
# Names in syntax trees

Where the rules of the grammar ask for a name, a syntax tree has one: the nodes of a sound
derivation are those of its parts, each part is what a step of its rule makes of it, and the
steps ask for names.  So the tree of every text is `Named` (`named_of_parse?`), and no
import, type or class is called by a text with a dot or a star in it.
-/

namespace DaoGen.Syntax

/-! ## Nodes -/

/-- The children of a node that the grammar asks a name for. -/
def asksForName (parent : Kind) (child : Node) : Bool :=
  nameRole? parent = some child.role || (parent = .wholeImport && child.kind = .name)

/-- A tree with names where the grammar asks for them, and comments in no role. -/
inductive Node.Named : Node → Prop
  | leaf (role : Role) (kind : Kind) (before : List Char) (start : Text.Position)
      (text : List Char) (typeName : kind = .typeName → IsNameText text)
      (comment : kind = .comment → role = .plain) : Named (.leaf role kind before start text)
  | branch (role : Role) (kind : Kind) (children : List Node) (typeName : kind ≠ .typeName)
      (comment : kind ≠ .comment)
      (names : ∀ child ∈ children, asksForName kind child → IsNameText child.text)
      (named : ∀ child ∈ children, Named child) : Named (.branch role kind children)

namespace Node

theorem text_withRole (role : Role) (n : Node) : (n.withRole role).text = n.text := by
  cases n with
  | leaf => rw [withRole, text_leaf, text_leaf]
  | branch _ kind children =>
    unfold Node.text
    rw [withRole, opening?, opening?, fullText, fullText]

theorem role_withRole (role : Role) (n : Node) : (n.withRole role).role = role := by
  cases n <;> rfl

theorem Named.withRole {n : Node} (h : n.Named) (hcomment : n.isComment = false) (role : Role) :
    (n.withRole role).Named := by
  have hkind : n.kind ≠ .comment := of_decide_eq_false hcomment
  cases h with
  | leaf _ kind before start text typeName _ =>
    exact .leaf _ _ _ _ _ typeName fun heq => absurd heq hkind
  | branch _ kind children typeName comment names named =>
    exact .branch _ _ _ typeName comment names named

theorem Named.role_of_isComment {n : Node} (h : n.Named) (hcomment : n.isComment) :
    n.role = .plain := by
  have hkind : n.kind = .comment := of_decide_eq_true hcomment
  cases h with
  | leaf _ _ _ _ _ _ comment => exact comment hkind
  | branch _ _ _ _ comment => exact absurd hkind comment

theorem Named.child {n child : Node} (h : n.Named) (hchild : child ∈ n.children) : child.Named := by
  cases h with
  | leaf => cases hchild
  | branch _ _ _ _ _ _ named => exact named child hchild

theorem Named.isNameText_of_asksForName {n child : Node} (h : n.Named)
    (hchild : child ∈ n.children) (hasks : asksForName n.kind child) : IsNameText child.text := by
  cases h with
  | leaf => cases hchild
  | branch _ _ _ _ _ names => exact names child hchild hasks

theorem Named.isNameText_of_typeName {n : Node} (h : n.Named) (hkind : n.kind = .typeName) :
    IsNameText n.text := by
  cases h with
  | leaf _ _ _ _ _ typeName =>
    rw [text_leaf]
    exact typeName hkind
  | branch _ _ _ typeName => exact absurd hkind typeName

/-- A node among those that are assigned a role: a comment as it was, or a node in the role. -/
theorem exists_of_mem_assign {role : Role} {nodes : List Node} {n : Node}
    (h : n ∈ assign role nodes) :
    (n ∈ nodes ∧ n.isComment) ∨ ∃ m ∈ nodes, m.isComment = false ∧ n = m.withRole role := by
  obtain ⟨m, hm, rfl⟩ := List.mem_map.1 h
  split
  · rename_i hcomment
    exact .inl ⟨hm, hcomment⟩
  · rename_i hcomment
    exact .inr ⟨m, hm, Bool.eq_false_iff.2 hcomment, rfl⟩

end Node

/-! ## Symbols of the grammar -/

theorem Token.kind_ne_typeName (t : Token) : t.kind ≠ .typeName := by
  unfold Token.kind
  split <;> decide

theorem Token.eq_interpreter_of_kind {t : Token} (h : t.kind = .comment)
    (hextra : t.isExtra = false) : t = .interpreter := by
  unfold Token.kind at h
  split at h
  all_goals first | rfl | exact absurd hextra (by decide) | cases h

theorem Token.eq_name_of_kind {t : Token} (h : t.kind = .name) : t = .name := by
  unfold Token.kind at h
  split at h
  all_goals first | rfl | cases h

theorem Token.kind_of_isExtra {t : Token} (h : t.isExtra) : t.kind = .comment := by
  unfold Token.isExtra at h
  rw [Bool.or_eq_true, decide_eq_true_eq, decide_eq_true_eq] at h
  rcases h with rfl | rfl
  · rfl
  · rfl

theorem Phrase.number_lt (p : Phrase) : p.number < Alphabet.phraseCount := by
  cases p <;> decide

theorem Phrase.number_injective {p q : Phrase} (h : p.number = q.number) : p = q := by
  have hof := congrArg Phrase.ofNat h
  unfold Phrase.number at hof
  rwa [Phrase.ofNat_ctorIdx, Phrase.ofNat_ctorIdx] at hof

section Reading

variable {rules : List Rule}

namespace Derivation

/-- A derivation that reads a token is a leaf with one that has the same number. -/
theorem Sound.exists_leaf {a : Alphabet} {productions : List Production} {d : Derivation} {t : Token}
    (hd : d.Sound a productions) (hsymbol : d.symbol = a.symbol t) :
    ∃ token before start text,
      d = .leaf (a.number.getD token 0) token.isExtra token.isEmpty
        (.leaf .plain token.kind before start text) ∧
      a.number.getD token 0 = a.number.getD t 0 ∧ (token.isNaming → IsNameText text) := by
  cases hd with
  | leaf token before start text name =>
    exact ⟨token, before, start, text, rfl, Symbol.token.inj hsymbol, name⟩
  | branch => cases hsymbol

/-- A derivation that reads a phrase is a branch by a production of its rule. -/
theorem Sound.exists_branch {d : Derivation} {q : Phrase}
    (hd : d.Sound (.ofRules rules) (productionsOf rules)) (hsymbol : d.symbol = .phrase q.number) :
    ∃ rule ∈ rules, rule.1 = q ∧ ∃ p ∈ productionsOf rules, (Alphabet.ofRules rules).OfRule rule p ∧
      ∃ weight parts children, d = .branch q.number q.kind? weight parts children ∧
        (symbols children).length = parts.length ∧ p.steps = (symbols children).zip parts ∧
        ∀ child ∈ children, child.Sound (.ofRules rules) (productionsOf rules) := by
  cases hd with
  | leaf => cases hsymbol
  | branch p weight parts children mem length steps sound =>
    have hhead : p.head = q.number := Symbol.phrase.inj hsymbol
    rcases exists_source_of_mem_productions mem with ⟨rule, hrule, hof⟩ | ⟨form, -, hof⟩
    · obtain rfl : rule.1 = q := Phrase.number_injective (hof.1.symm.trans hhead)
      refine ⟨rule, hrule, rfl, p, mem, hof, weight, parts, children, ?_, length, steps, sound⟩
      rw [hof.1, hof.2.1]
    · exact absurd q.number_lt (Nat.not_lt.2 (hhead ▸ hof.1))

/-! ## Nodes of a derivation -/

theorem place_leaf (part : Part) (kind : Kind) (before : List Char) (start : Text.Position)
    (text : List Char) : place part (.leaf .plain kind before start text) =
      .leaf part.role (part.kind.getD kind) before start text := by
  obtain ⟨role, partKind⟩ := part
  unfold place
  by_cases hrole : role = .plain
  · cases partKind <;> simp [hrole]
  · cases partKind <;> simp [hrole, Node.withRole]

/-- The node of a token has the role and the kind of its part. -/
theorem eq_leaf_of_mem_nodes {part : Part} {number : Nat} {isExtra isHidden : Bool} {kind : Kind}
    {before : List Char} {start : Text.Position} {text : List Char} {n : Node}
    (hn : n ∈ nodes part (.leaf number isExtra isHidden (.leaf .plain kind before start text))) :
    n = .leaf part.role (part.kind.getD kind) before start text := by
  rw [nodes] at hn
  split at hn
  · cases hn
  · rw [List.mem_singleton.1 hn, place_leaf]

/-- The nodes of a phrase: one with the nodes of its parts, or these nodes in its role. -/
theorem cases_of_mem_nodes {part : Part} {number : Nat} {kind : Option Kind} {weight : Int}
    {parts : List Part} {children : List Derivation} {n : Node}
    (hn : n ∈ nodes part (.branch number kind weight parts children)) :
    (∃ k, (part.kind <|> kind) = some k ∧ n = .branch part.role k (nodesOf parts children)) ∨
      (part.kind <|> kind) = none ∧ n ∈
        (if part.role = .plain then nodesOf parts children
          else Node.assign part.role (nodesOf parts children)) := by
  rw [nodes] at hn
  cases hkind : part.kind <|> kind with
  | some k =>
    rw [hkind] at hn
    exact .inl ⟨k, rfl, List.mem_singleton.1 hn⟩
  | none =>
    rw [hkind] at hn
    exact .inr ⟨rfl, hn⟩

/-- What a child is to the node of its phrase: a comment is no part of it, any other child is
what its step says. -/
def IsPart (parts : List Part) (children : List Derivation) (child : Derivation) (part : Part) :
    Prop :=
  child ∈ children ∧ (child.isExtra ∧ part = {} ∨
    child.isExtra = false ∧ (child.symbol, part) ∈ (symbols children).zip parts)

theorem nodesOf_cons_of_isExtra {first : Derivation} (hextra : first.isExtra) (parts : List Part)
    (rest : List Derivation) :
    nodesOf parts (first :: rest) = first.nodes {} ++ nodesOf parts rest := by
  cases first with
  | leaf number isExtra isHidden node =>
    obtain rfl : isExtra = true := hextra
    rfl
  | branch => cases hextra

theorem nodesOf_cons_of_not_isExtra {first : Derivation} (hextra : first.isExtra = false)
    (parts : List Part) (rest : List Derivation) :
    nodesOf parts (first :: rest) = first.nodes (parts.headD {}) ++ nodesOf parts.tail rest := by
  cases first with
  | leaf number isExtra isHidden node =>
    obtain rfl : isExtra = false := hextra
    rfl
  | branch => rfl

/-- Every node below a phrase is one of a part. -/
theorem exists_part_of_mem_nodesOf {parts : List Part} {children : List Derivation}
    (hlength : (symbols children).length = parts.length) {n : Node}
    (hn : n ∈ nodesOf parts children) :
    ∃ child part, IsPart parts children child part ∧ n ∈ child.nodes part := by
  induction children generalizing parts with
  | nil =>
    rw [nodesOf] at hn
    cases hn
  | cons first rest ih =>
    cases hextra : first.isExtra with
    | true =>
      have hsymbols : symbols (first :: rest) = symbols rest := by simp [symbols, hextra]
      unfold IsPart
      rw [hsymbols] at hlength ⊢
      rw [nodesOf_cons_of_isExtra hextra] at hn
      rcases List.mem_append.1 hn with hn | hn
      · exact ⟨first, {}, ⟨List.mem_cons_self, .inl ⟨hextra, rfl⟩⟩, hn⟩
      · obtain ⟨child, part, ⟨hchild, hpart⟩, hn⟩ := ih hlength hn
        exact ⟨child, part, ⟨List.mem_cons_of_mem _ hchild, hpart⟩, hn⟩
    | false =>
      have hsymbols : symbols (first :: rest) = first.symbol :: symbols rest := by
        simp [symbols, hextra]
      unfold IsPart
      rw [hsymbols] at hlength ⊢
      rw [nodesOf_cons_of_not_isExtra hextra] at hn
      cases parts with
      | nil => cases hlength
      | cons part parts =>
        rw [List.length_cons, List.length_cons, Nat.add_right_cancel_iff] at hlength
        rw [List.zip_cons_cons]
        rcases List.mem_append.1 hn with hn | hn
        · exact ⟨first, part, ⟨List.mem_cons_self, .inr ⟨hextra, List.mem_cons_self⟩⟩, hn⟩
        · obtain ⟨child, other, ⟨hchild, hpart⟩, hn⟩ := ih hlength hn
          refine ⟨child, other, ⟨List.mem_cons_of_mem _ hchild, hpart.imp_right ?_⟩, hn⟩
          exact fun hstep => ⟨hstep.1, List.mem_cons_of_mem _ hstep.2⟩

/-- Parts that are nothing to their node leave the nodes below as they are. -/
theorem exists_of_mem_nodesOf {parts : List Part} (hparts : ∀ part ∈ parts, part = {})
    {children : List Derivation} {n : Node} (hn : n ∈ nodesOf parts children) :
    ∃ child ∈ children, n ∈ child.nodes {} := by
  induction children generalizing parts with
  | nil =>
    rw [nodesOf] at hn
    cases hn
  | cons first rest ih =>
    have hfirst : nodesOf parts (first :: rest) = first.nodes {} ++ nodesOf parts rest ∨
        nodesOf parts (first :: rest) = first.nodes {} ++ nodesOf parts.tail rest := by
      cases hextra : first.isExtra with
      | true => exact .inl (nodesOf_cons_of_isExtra hextra _ _)
      | false =>
        right
        rw [nodesOf_cons_of_not_isExtra hextra]
        cases parts with
        | nil => rfl
        | cons part parts => rw [List.headD_cons, hparts part List.mem_cons_self]
    have hhead : n ∈ first.nodes {} → ∃ child ∈ first :: rest, n ∈ child.nodes {} :=
      fun hn => ⟨first, List.mem_cons_self, hn⟩
    have hrest : (∃ child ∈ rest, n ∈ child.nodes {}) →
        ∃ child ∈ first :: rest, n ∈ child.nodes {} :=
      fun ⟨child, hchild, hn⟩ => ⟨child, List.mem_cons_of_mem _ hchild, hn⟩
    rcases hfirst with heq | heq
    · rw [heq] at hn
      exact (List.mem_append.1 hn).elim hhead fun hn => hrest (ih hparts hn)
    · rw [heq] at hn
      refine (List.mem_append.1 hn).elim hhead fun hn => hrest (ih ?_ hn)
      exact fun part hpart => hparts part (List.mem_of_mem_tail hpart)

/-! ## Regular parts -/

/-- No part at all, or one that a regular step makes of what it reads. -/
def IsRegularPart (rules : List Rule) (d : Derivation) (part : Part) : Prop :=
  part = {} ∨ d.isExtra = false ∧
    ∃ atom, d.symbol = (Alphabet.ofRules rules).symbolOf atom ∧ isRegular (atom, part)

theorem IsPart.isRegularPart (h : AsksForNames rules) {p : Production}
    (hp : p ∈ productionsOf rules) {parts : List Part} {children : List Derivation}
    (hsteps : p.steps = (symbols children).zip parts) {child : Derivation} {part : Part}
    (hpart : IsPart parts children child part) : IsRegularPart rules child part := by
  rcases hpart.2 with ⟨-, hnone⟩ | ⟨hextra, hstep⟩
  · exact .inl hnone
  rw [← hsteps] at hstep
  have hreads : ∀ atoms, (∀ step ∈ atoms, isRegular step) →
      (Alphabet.ofRules rules).Reads atoms (child.symbol, part) → IsRegularPart rules child part := by
    rintro atoms hatoms ⟨atom, hatom, hsymbol⟩
    exact .inr ⟨hextra, atom, hsymbol, hatoms _ hatom⟩
  rcases exists_source_of_mem_productions hp with ⟨rule, hrule, hof⟩ | ⟨form, hform, hof⟩
  · exact hreads _ (h.regular rule hrule) (hof.2.2 _ hstep)
  · rcases hof.2.2 _ hstep with hself | hread
    · exact .inl (Prod.mk.inj hself).2
    · rw [Alphabet.repetitions_ofRules] at hform
      exact hreads _ (h.repeated form (mem_of_mem_distinct hform)) hread

theorem exists_token_of_symbolOf {a : Alphabet} {atom : Atom} {n : Nat}
    (hsymbol : .token n = a.symbolOf atom) : ∃ t, atom = .token t ∧ n = a.number.getD t 0 := by
  cases atom with
  | token t => exact ⟨t, rfl, Symbol.token.inj hsymbol⟩
  | phrase => cases hsymbol
  | repeated => cases hsymbol

theorem eq_name_of_isName {atom : Atom} (hname : atom.isName) : atom = .token .name := by
  unfold Atom.isName at hname
  split at hname
  · rfl
  · cases hname

theorem eq_interpreter_of_number_eq (h : AsksForNames rules) {t : Token}
    (hnumber : (Alphabet.ofRules rules).number.getD t 0 =
      (Alphabet.ofRules rules).number.getD .interpreter 0) : t = .interpreter :=
  Alphabet.eq_of_number_eq (mem_distinct_of_mem (List.mem_append_right _ h.interpreter))
    (by decide) hnumber

theorem name_mem_tokenList (rules : List Rule) : .name ∈ Alphabet.tokenList rules :=
  mem_distinct_of_mem (List.mem_append_left _ (by decide))

/-- A token in a regular part is a name where the grammar asks for one. -/
theorem named_leaf (h : AsksForNames rules) {token : Token} {before : List Char}
    {start : Text.Position} {text : List Char} (name : token.isNaming → IsNameText text) {part : Part}
    (hpart : IsRegularPart rules (.leaf ((Alphabet.ofRules rules).number.getD token 0) token.isExtra
      token.isEmpty (.leaf .plain token.kind before start text)) part) :
    (Node.leaf part.role (part.kind.getD token.kind) before start text).Named := by
  rcases hpart with rfl | ⟨hextra, atom, hsymbol, hregular⟩
  · exact .leaf _ _ _ _ _ (fun heq => absurd heq token.kind_ne_typeName) fun _ => rfl
  obtain ⟨t, rfl, hnumber⟩ := exists_token_of_symbolOf hsymbol
  obtain ⟨hkind, hrole⟩ := Bool.and_eq_true_iff.1 hregular
  refine .leaf _ _ _ _ _ (fun htype => ?_) fun hcomment => ?_
  · cases hown : part.kind with
    | none =>
      rw [hown, Option.getD_none] at htype
      exact absurd htype token.kind_ne_typeName
    | some kind =>
      rw [hown, Option.getD_some] at htype
      rw [hown, htype] at hkind
      obtain rfl := Atom.token.inj (eq_name_of_isName hkind)
      obtain rfl := Alphabet.eq_of_number_eq (name_mem_tokenList rules) (by decide) hnumber
      exact name rfl
  · cases hown : part.kind with
    | none =>
      rw [hown, Option.getD_none] at hcomment
      obtain rfl := Token.eq_interpreter_of_kind hcomment hextra
      obtain rfl := eq_interpreter_of_number_eq h hnumber.symm
      simpa [Atom.isInterpreter] using hrole
    | some kind =>
      rw [hown, Option.getD_some] at hcomment
      rw [hown, hcomment] at hkind
      cases hkind

/-! ## Names below a phrase -/

theorem Sound.isComment_of_isExtra {a : Alphabet} {productions : List Production} {d : Derivation}
    (hd : d.Sound a productions) (hextra : d.isExtra) {n : Node} (hn : n ∈ d.nodes {}) :
    n.kind = .comment ∧ n.role = .plain := by
  cases hd with
  | leaf token before start text name =>
    rw [eq_leaf_of_mem_nodes hn]
    exact ⟨Token.kind_of_isExtra hextra, rfl⟩
  | branch => cases hextra

/-- What reads a name or a word of the grammar has the text of a name. -/
theorem Sound.isNameText_of_token {d : Derivation}
    (hd : d.Sound (.ofRules rules) (productionsOf rules)) {t : Token}
    (hsymbol : d.symbol = (Alphabet.ofRules rules).symbol t) (ht : t ∈ Alphabet.tokenList rules)
    (hnaming : t.isNaming) {part : Part} {n : Node} (hn : n ∈ d.nodes part) : IsNameText n.text := by
  obtain ⟨token, before, start, text, rfl, hnumber, hspelled⟩ := hd.exists_leaf hsymbol
  have hstop : t ≠ .stop := by
    rintro rfl
    cases hnaming
  obtain rfl := Alphabet.eq_of_number_eq ht hstop hnumber
  rw [eq_leaf_of_mem_nodes hn, Node.text_leaf]
  exact hspelled hnaming

/-- The nodes of a part that reads the name of an import are names in its role. -/
theorem isNameText_of_importName (h : AsksForNames rules) {d : Derivation}
    (hd : d.Sound (.ofRules rules) (productionsOf rules))
    (hsymbol : d.symbol = .phrase Phrase.importName.number) {part : Part} (hkind : part.kind = none)
    (hrole : part.role ≠ .plain) {n : Node} (hn : n ∈ d.nodes part) (hcomment : n.isComment = false) :
    IsNameText n.text := by
  obtain ⟨rule, hrule, hphrase, p, hp, hof, weight, parts, children, rfl, hlength, hsteps, hsound⟩ :=
    hd.exists_branch hsymbol
  rcases cases_of_mem_nodes hn with ⟨k, hk, -⟩ | ⟨-, hn⟩
  · rw [hkind] at hk
    cases hk
  rw [if_neg hrole] at hn
  rcases Node.exists_of_mem_assign hn with ⟨-, htrue⟩ | ⟨m, hm, hplain, rfl⟩
  · rw [hcomment] at htrue
    cases htrue
  rw [Node.text_withRole]
  obtain ⟨child, inner, hpart, hm⟩ := exists_part_of_mem_nodesOf hlength hm
  have hchild := hsound child hpart.1
  rcases hpart.2 with ⟨hextra, rfl⟩ | ⟨-, hstep⟩
  · exact absurd (hchild.isComment_of_isExtra hextra hm).1 (of_decide_eq_false hplain)
  rw [← hsteps] at hstep
  obtain ⟨atom, hatom, hread⟩ := hof.2.2 _ hstep
  have hname := h.importName rule hrule hphrase _ hatom
  unfold Atom.isImportName at hname
  split at hname
  · rename_i heq
    obtain rfl : atom = .token .name := heq
    exact hchild.isNameText_of_token hread (name_mem_tokenList rules) rfl hm
  · rename_i heq
    obtain rfl : atom = .token (.word "type") := heq
    exact hchild.isNameText_of_token hread
      (mem_distinct_of_mem (List.mem_append_right _ h.typeWord)) rfl hm
  · cases hname

/-- The nodes of a phrase have the role of its part, comments apart, unless they are those of
the parts below. -/
theorem role_of_mem_nodes {part : Part} {number : Nat} {kind : Option Kind} {weight : Int}
    {parts : List Part} {children : List Derivation} {n : Node}
    (hn : n ∈ nodes part (.branch number kind weight parts children))
    (hown : (part.kind <|> kind).isSome ∨ part.role ≠ .plain) :
    n.role = part.role ∨ n.isComment := by
  rcases cases_of_mem_nodes hn with ⟨k, -, rfl⟩ | ⟨hnone, hn⟩
  · exact .inl rfl
  · rcases hown with hsome | hrole
    · rw [hnone] at hsome
      cases hsome
    · rw [if_neg hrole] at hn
      rcases Node.exists_of_mem_assign hn with ⟨-, hcomment⟩ | ⟨m, -, -, rfl⟩
      · exact .inr hcomment
      · exact .inl (Node.role_withRole _ _)

/-- What a step that keeps a role for names has in that role is a name. -/
theorem isNameText_of_keepsForNames (h : AsksForNames rules) {d : Derivation}
    (hd : d.Sound (.ofRules rules) (productionsOf rules)) {atom : Atom} {part : Part}
    (hsymbol : d.symbol = (Alphabet.ofRules rules).symbolOf atom)
    (hkeeps : keepsForNames part.role (atom, part)) {n : Node} (hn : n ∈ d.nodes part)
    (hcomment : n.isComment = false) (hrole : part.role ≠ .plain) : IsNameText n.text := by
  unfold keepsForNames at hkeeps
  rw [if_pos rfl] at hkeeps
  split at hkeeps
  · rename_i heq
    obtain rfl : atom = .phrase .importName := heq
    exact isNameText_of_importName h hd hsymbol (of_decide_eq_true hkeeps) hrole hn hcomment
  · obtain rfl := eq_name_of_isName hkeeps
    exact hd.isNameText_of_token hsymbol (name_mem_tokenList rules) rfl hn

/-- A step that keeps a role for names has nothing in that role unless it gives the role. -/
theorem role_eq_of_keepsForNames {d : Derivation}
    (hd : d.Sound (.ofRules rules) (productionsOf rules)) {atom : Atom} {part : Part} {role : Role}
    (hsymbol : d.symbol = (Alphabet.ofRules rules).symbolOf atom)
    (hkeeps : keepsForNames role (atom, part)) {n : Node} (hn : n ∈ d.nodes part)
    (hcomment : n.isComment = false) (hrole : n.role = role) : part.role = role := by
  by_contra hne
  have hother : n.role = part.role ∨ n.isComment → False := by
    rintro (heq | htrue)
    · exact hne (heq.symm.trans hrole)
    · rw [hcomment] at htrue
      cases htrue
  unfold keepsForNames at hkeeps
  rw [if_neg hne] at hkeeps
  split at hkeeps
  · rename_i t heq
    obtain rfl : atom = .token t := heq
    obtain ⟨token, before, start, text, rfl, -, -⟩ := hd.exists_leaf hsymbol
    rw [eq_leaf_of_mem_nodes hn] at hother
    exact hother (.inl rfl)
  · rename_i q heq
    obtain rfl : atom = .phrase q := heq
    obtain ⟨rule, -, -, p, -, -, weight, parts, children, rfl, -, -, -⟩ := hd.exists_branch hsymbol
    refine hother (role_of_mem_nodes hn ?_)
    simpa [or_assoc] using hkeeps
  · rename_i form heq
    obtain rfl : atom = .repeated form := heq
    cases hd with
    | leaf => cases hsymbol
    | branch p weight parts children =>
      refine hother (role_of_mem_nodes hn ?_)
      rw [Bool.or_eq_true, decide_eq_true_eq] at hkeeps
      refine hkeeps.imp_left fun hsome => ?_
      simp [hsome]

section Asking

variable {rule : Rule} {p : Production} {parts : List Part} {children : List Derivation} {n : Node}

/-- A node in the role of names is a name, when the rule of its phrase keeps the role for them. -/
theorem isNameText_of_role (h : AsksForNames rules)
    (hof : (Alphabet.ofRules rules).OfRule rule p)
    (hkeeps : ∀ step ∈ rule.2.atoms, keepsForNames n.role step)
    (hlength : (symbols children).length = parts.length)
    (hsteps : p.steps = (symbols children).zip parts)
    (hsound : ∀ child ∈ children, child.Sound (.ofRules rules) (productionsOf rules))
    (hn : n ∈ nodesOf parts children) (hnamed : n.Named) (hrole : n.role ≠ .plain) :
    IsNameText n.text := by
  obtain ⟨child, part, hpart, hn⟩ := exists_part_of_mem_nodesOf hlength hn
  have hchild := hsound child hpart.1
  have hcomment : n.isComment = false :=
    Bool.eq_false_iff.2 fun htrue => hrole (hnamed.role_of_isComment htrue)
  rcases hpart.2 with ⟨hextra, rfl⟩ | ⟨-, hstep⟩
  · exact absurd (hchild.isComment_of_isExtra hextra hn).2 hrole
  rw [← hsteps] at hstep
  obtain ⟨atom, hatom, hread⟩ := hof.2.2 _ hstep
  have hkept := hkeeps _ hatom
  have hsame := role_eq_of_keepsForNames hchild hread hkept hn hcomment rfl
  rw [← hsame] at hkept hrole
  exact isNameText_of_keepsForNames h hchild hread hkept hn hcomment hrole

/-- A node of the kind of names is a name, when the rule of its phrase has tokens only. -/
theorem isNameText_of_kind (hof : (Alphabet.ofRules rules).OfRule rule p)
    (htokens : ∀ step ∈ rule.2.atoms, step.1.isToken ∧ step.2.kind = none)
    (hlength : (symbols children).length = parts.length)
    (hsteps : p.steps = (symbols children).zip parts)
    (hsound : ∀ child ∈ children, child.Sound (.ofRules rules) (productionsOf rules))
    (hn : n ∈ nodesOf parts children) (hkind : n.kind = .name) : IsNameText n.text := by
  obtain ⟨child, part, hpart, hn⟩ := exists_part_of_mem_nodesOf hlength hn
  have hchild := hsound child hpart.1
  rcases hpart.2 with ⟨hextra, rfl⟩ | ⟨-, hstep⟩
  · rw [(hchild.isComment_of_isExtra hextra hn).1] at hkind
    cases hkind
  rw [← hsteps] at hstep
  obtain ⟨atom, hatom, hread⟩ := hof.2.2 _ hstep
  obtain ⟨htoken, hown⟩ := htokens _ hatom
  unfold Atom.isToken at htoken
  split at htoken
  · rename_i t heq
    obtain rfl : atom = .token t := heq
    obtain ⟨token, before, start, text, rfl, -, hspelled⟩ := hchild.exists_leaf hread
    have hown : part.kind = none := hown
    have hn := eq_leaf_of_mem_nodes hn
    rw [hown, Option.getD_none] at hn
    subst hn
    obtain rfl := Token.eq_name_of_kind hkind
    rw [Node.text_leaf]
    exact hspelled rfl
  · cases htoken

/-- A node that its phrase asks a name for is one. -/
theorem isNameText_of_asksForName (h : AsksForNames rules) (hrule : rule ∈ rules)
    (hof : (Alphabet.ofRules rules).OfRule rule p) {kind : Kind}
    (hkind : rule.1.kind? = some kind) (hlength : (symbols children).length = parts.length)
    (hsteps : p.steps = (symbols children).zip parts)
    (hsound : ∀ child ∈ children, child.Sound (.ofRules rules) (productionsOf rules))
    (hn : n ∈ nodesOf parts children) (hnamed : n.Named) (hasks : asksForName kind n) :
    IsNameText n.text := by
  unfold asksForName at hasks
  rw [Bool.or_eq_true, Bool.and_eq_true, decide_eq_true_eq, decide_eq_true_eq,
    decide_eq_true_eq] at hasks
  rcases hasks with hrole | ⟨rfl, hname⟩
  · refine isNameText_of_role h hof (h.role rule hrule n.role (by rw [hkind]; exact hrole))
      hlength hsteps hsound hn hnamed fun heq => ?_
    rw [heq] at hrole
    cases kind <;> cases hrole
  · exact isNameText_of_kind hof (h.wholeImport rule hrule hkind) hlength hsteps hsound hn hname

end Asking

/-! ## Named trees -/

section Branches

variable {p : Production} {weight : Int} {parts : List Part} {children : List Derivation}
  {part : Part} {kind : Kind}

/-- The kind that a step gives to a phrase asks for no names. -/
theorem named_branch_of_step (hinner : ∀ n ∈ nodesOf parts children, n.Named)
    (hpart : IsRegularPart rules (.branch p.head p.kind weight parts children) part)
    (hkind : part.kind = some kind) :
    (Node.branch part.role kind (nodesOf parts children)).Named := by
  rcases hpart with rfl | ⟨-, atom, hsymbol, hregular⟩
  · cases hkind
  have hname : atom.isName = false := by
    refine Bool.eq_false_iff.2 fun htrue => ?_
    rw [eq_name_of_isName htrue] at hsymbol
    cases hsymbol
  have hregular := (Bool.and_eq_true_iff.1 hregular).1
  dsimp only at hregular
  rw [hkind] at hregular
  refine .branch _ _ _ ?_ ?_ (fun n _ hasks => ?_) hinner
  · rintro rfl
    rw [hname] at hregular
    cases hregular
  · rintro rfl
    cases hregular
  · cases kind <;> first | cases hasks | cases hregular

/-- The kind of a phrase asks for the names that its rule reads. -/
theorem named_branch_of_rule (h : AsksForNames rules) (hp : p ∈ productionsOf rules)
    (hlength : (symbols children).length = parts.length)
    (hsteps : p.steps = (symbols children).zip parts)
    (hsound : ∀ child ∈ children, child.Sound (.ofRules rules) (productionsOf rules))
    (hinner : ∀ n ∈ nodesOf parts children, n.Named) (hkind : p.kind = some kind) (role : Role) :
    (Node.branch role kind (nodesOf parts children)).Named := by
  rcases exists_source_of_mem_productions hp with ⟨rule, hrule, hof⟩ | ⟨form, -, hof⟩
  · have hkind : rule.1.kind? = some kind := hof.2.1.symm.trans hkind
    obtain ⟨htype, hcomment⟩ := h.kind rule hrule
    rw [hkind] at htype hcomment
    refine .branch _ _ _ (fun heq => htype (congrArg some heq))
      (fun heq => hcomment (congrArg some heq)) (fun n hn hasks => ?_) hinner
    exact isNameText_of_asksForName h hrule hof hkind hlength hsteps hsound hn (hinner n hn) hasks
  · rw [hof.2.1] at hkind
    cases hkind

end Branches

/-- A sound derivation has named nodes, whatever regular part it is. -/
theorem Sound.named (h : AsksForNames rules) {d : Derivation}
    (hd : d.Sound (.ofRules rules) (productionsOf rules)) {part : Part}
    (hpart : IsRegularPart rules d part) : ∀ n ∈ d.nodes part, n.Named := by
  induction hd generalizing part with
  | leaf token before start text name =>
    intro n hn
    rw [eq_leaf_of_mem_nodes hn]
    exact named_leaf h name hpart
  | branch p weight parts children mem length steps sound ih =>
    have hinner : ∀ n ∈ nodesOf parts children, n.Named := by
      intro n hn
      obtain ⟨child, inner, hinner, hn⟩ := exists_part_of_mem_nodesOf length hn
      exact ih child hinner.1 (hinner.isRegularPart h mem steps) n hn
    intro n hn
    rcases cases_of_mem_nodes hn with ⟨kind, hkind, rfl⟩ | ⟨-, hn⟩
    · cases hown : part.kind with
      | some own =>
        rw [hown] at hkind
        obtain rfl : own = kind := Option.some.inj hkind
        exact named_branch_of_step hinner hpart hown
      | none =>
        rw [hown] at hkind
        exact named_branch_of_rule h mem length steps sound hinner hkind part.role
    · split at hn
      · exact hinner n hn
      · rcases Node.exists_of_mem_assign hn with ⟨hn, -⟩ | ⟨m, hm, hcomment, rfl⟩
        · exact hinner n hn
        · exact (hinner m hm).withRole hcomment _

/-- The tree of a whole text is named. -/
theorem IsWhole.named (h : AsksForNames rules) {table : Table}
    (halphabet : table.alphabet = .ofRules rules) {d : Derivation}
    (hd : d.IsWhole table (productionsOf rules)) {tree : Node} (htree : tree ∈ d.nodes {}) :
    tree.Named := by
  obtain ⟨p, hp, hhead, weight, children, rfl, hsound⟩ := hd
  rw [halphabet] at hsound
  rcases exists_source_of_mem_productions hp with ⟨rule, hrule, hof⟩ | ⟨form, -, hof⟩
  · have hphrase : rule.1 = .program := Phrase.number_injective (hof.1.symm.trans hhead)
    have hparts : ∀ part ∈ p.steps.map (·.2), part = {} := by
      intro part hpart
      obtain ⟨step, hstep, rfl⟩ := List.mem_map.1 hpart
      obtain ⟨atom, hatom, -⟩ := hof.2.2 step hstep
      exact h.program rule hrule hphrase _ hatom
    have hinner : ∀ n ∈ nodesOf (p.steps.map (·.2)) children, n.Named := by
      intro n hn
      obtain ⟨child, hchild, hn⟩ := exists_of_mem_nodesOf hparts hn
      exact (hsound child hchild).named h (.inl rfl) n hn
    have hkind : p.kind = some .program := by
      rw [hof.2.1, hphrase]
      rfl
    rcases cases_of_mem_nodes htree with ⟨kind, hk, rfl⟩ | ⟨hnone, -⟩
    · rw [hkind] at hk
      obtain rfl : Kind.program = kind := Option.some.inj hk
      exact .branch _ _ _ (by decide) (by decide) (fun n _ hasks => by cases hasks) hinner
    · rw [hkind] at hnone
      cases hnone
  · exact absurd Phrase.program.number_lt (Nat.not_lt.2 (hhead ▸ hof.1))

end Derivation

end Reading

/-- The tree of a source text has names where the grammar asks for them. -/
theorem named_of_parse? {text : List Char} {tree : Node} (h : parse? text = some tree) :
    tree.Named := by
  obtain ⟨d, hd, hhead⟩ := Option.bind_eq_some_iff.1 h
  exact (isWhole_of_derivation? hd).named Grammar.asksForNames (Table.alphabet_ofRules _)
    (List.mem_of_head? hhead)

end DaoGen.Syntax
