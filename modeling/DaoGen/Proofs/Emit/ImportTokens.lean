import DaoGen.Proofs.Emit.Bindings
import DaoGen.Proofs.Emit.Identifiers
import DaoGen.Proofs.Text.Quoted
set_option autoImplicit false

/-!
# Tokens of import declarations

The text of import declarations is cut into words, string literals and marks.  A word is as long as
it can be, and a literal ends with its quote, whatever stands between; blanks and ends of lines
separate.  Comments and names spelled by numbers are not read.

The lines of an import block have the tokens of the declarations that they are written for
(`ImportBlock.spells_wholeLine`, `ImportBlock.spells_namedLine`).
-/

namespace DaoGen

/-! ## Words -/

namespace IdentifierTables

variable (u : IdentifierTables)

/-- A text of identifier characters; a reserved word is one, too. -/
def IsWord (text : String) : Prop :=
  ∃ c rest, text.toList = c :: rest ∧ u.isStart c ∧ ∀ d ∈ rest, u.isPart d

theorem isWord_iff {text : String} :
    u.IsWord text ↔
      (text.toList.head?.any u.isStart && text.toList.tail.all u.isPart) = true := by
  unfold IsWord
  cases text.toList <;> simp

instance (text : String) : Decidable (u.IsWord text) := decidable_of_iff' _ u.isWord_iff

instance (text : String) : Decidable (u.IsIdentifier text) :=
  inferInstanceAs (Decidable (u.IsWord text ∧ text ∉ reservedWords))

theorem isStart_of_ascii {c : Char} (h : c.toNat < 128) :
    u.isStart c = (c.isAlpha || c = '$' || c = '_') := by
  rw [isStart, u.starts_ascii c h]

theorem isPart_of_ascii {c : Char} (h : c.toNat < 128) :
    u.isPart c = (c.isAlphanum || c = '_' || c = '$') := by
  have hjoiner : ¬ c.toNat = 0x200C ∧ ¬ c.toNat = 0x200D := by omega
  simp only [isPart, u.continues_ascii c h, hjoiner, decide_false, Bool.or_false]

theorem isWord_of_letters {text : String} (hne : text.toList ≠ [])
    (hletters : text.toList.all Char.isAlpha = true) : u.IsWord text := by
  cases htext : text.toList with
  | nil => exact absurd htext hne
  | cons c rest =>
    rw [htext] at hletters
    have hall := List.all_eq_true.1 hletters
    have halphanum : ∀ d ∈ c :: rest, d.isAlphanum = true := by
      intro d hd
      rw [Char.isAlphanum, hall d hd, Bool.true_or]
    refine ⟨c, rest, htext, ?_, ?_⟩
    · exact (u.isStart_iff_of_isAlphanum (halphanum c List.mem_cons_self)).2
        (hall c List.mem_cons_self)
    · intro d hd
      exact u.isPart_of_isAlphanum (halphanum d (List.mem_cons_of_mem c hd))

end IdentifierTables

/-- A clause binds an identifier to a whole module or to an exported name, which may be reserved. -/
def ImportClause.Readable (u : IdentifierTables) (c : ImportClause) : Prop :=
  (c.exported = wholeModule ∨ u.IsWord c.exported) ∧ u.IsIdentifier c.localName

instance (u : IdentifierTables) (c : ImportClause) : Decidable (c.Readable u) :=
  inferInstanceAs (Decidable (_ ∧ _))

namespace ImportBlock

/-! ## Tokens -/

/-- A token of an import declaration. -/
inductive Token where
  /-- a name, a keyword or another reserved word -/
  | word (text : String)
  /-- a string literal, with the text it stands for -/
  | literal (value : String)
  | mark (c : Char)
  deriving DecidableEq, Repr

/-- The marks of import declarations. -/
def marks : List Char := ['{', '}', ',', ';', '*']

/-- Blanks and ends of lines. -/
def isSpace (c : Char) : Bool :=
  Syntax.isBlank c && c.toNat ≠ 0x200B && c.toNat ≠ 0x2060

variable (u : IdentifierTables)

/-- The token that a text starts with, and the number of its characters. -/
def firstToken? : List Char → Option (Token × Nat)
  | [] => none
  | c :: rest =>
    if u.isStart c then
      let word := c :: rest.takeWhile u.isPart
      some (.word (String.ofList word), word.length)
    else if marks.contains c then some (.mark c, 1)
    else if c = '\x60' then none
    else (Text.Literal.text? (c :: rest)).map fun (value, left) =>
      (.literal value, (c :: rest).length - left.length)

/-- The tokens of a text whose first characters belong to a token already read. -/
def tokensAfter? : Nat → List Char → Option (List Token)
  | _, [] => some []
  | read + 1, _ :: rest => tokensAfter? read rest
  | 0, c :: rest =>
    if !u.isStart c && isSpace c then tokensAfter? 0 rest
    else (firstToken? u (c :: rest)).bind fun (token, length) =>
      (tokensAfter? (length - 1) rest).map (token :: ·)

/-- The tokens of a text. -/
def tokens? (text : List Char) : Option (List Token) := tokensAfter? u 0 text

/-! ## Tokens of written pieces -/

section

variable {u}

/-- A text has the given tokens in front of any other text. -/
def Spells (u : IdentifierTables) (text : List Char) (tokens : List Token) : Prop :=
  ∀ rest, tokens? u (text ++ rest) = (tokens? u rest).map (tokens ++ ·)

theorem Spells.append {a b : List Char} {s t : List Token} (ha : Spells u a s)
    (hb : Spells u b t) : Spells u (a ++ b) (s ++ t) := by
  intro rest
  rw [List.append_assoc, ha, hb, Option.map_map]
  simp [Function.comp_def]

theorem tokensAfter?_append (text rest : List Char) :
    tokensAfter? u text.length (text ++ rest) = tokens? u rest := by
  induction text with
  | nil => rfl
  | cons c text ih =>
    rw [List.cons_append, List.length_cons, tokensAfter?]
    exact ih

/-- A text that starts with a token and then goes on. -/
theorem tokens?_of_firstToken? {c : Char} {text rest : List Char} {token : Token}
    (hspace : (!u.isStart c && isSpace c) = false)
    (h : firstToken? u (c :: (text ++ rest)) = some (token, text.length + 1)) :
    tokens? u (c :: (text ++ rest)) = (tokens? u rest).map (token :: ·) := by
  rw [tokens?, tokensAfter?, hspace, h]
  simp only [Bool.false_eq_true, if_false, Option.bind_some, Nat.add_sub_cancel]
  rw [tokensAfter?_append]

theorem isStart_of_mem_marks {c : Char} (h : c ∈ marks) : u.isStart c = false := by
  have hmeaning : (marks.all fun c => c.toNat < 128 ∧ (c.isAlpha || c = '$' || c = '_') = false) =
      true := by
    decide
  obtain ⟨hascii, hno⟩ := of_decide_eq_true (List.all_eq_true.1 hmeaning c h)
  rw [u.isStart_of_ascii hascii, hno]

theorem spells_mark {c : Char} (h : c ∈ marks) : Spells u [c] [.mark c] := by
  intro rest
  have hspaces : (marks.all fun c => isSpace c = false) = true := by decide
  have hspace : isSpace c = false := of_decide_eq_true (List.all_eq_true.1 hspaces c h)
  have hfirst : firstToken? u (c :: ([] ++ rest)) = some (.mark c, 1) := by
    rw [firstToken?, isStart_of_mem_marks h, List.contains_iff_mem.2 h]
    rfl
  exact tokens?_of_firstToken? (by rw [hspace, Bool.and_false]) hfirst

theorem spells_space {c : Char} (h : c = ' ' ∨ c = '\n') : Spells u [c] [] := by
  intro rest
  have hstart : u.isStart c = false := by
    rcases h with rfl | rfl <;> rw [u.isStart_of_ascii (by decide)] <;> decide
  have hspace : isSpace c = true := by
    rcases h with rfl | rfl <;> decide
  rw [List.singleton_append, tokens?, tokensAfter?, hstart, hspace]
  simp [tokens?]

/-- A word ends in front of a character that no word holds. -/
theorem spells_word {word : String} (hword : u.IsWord word) {c : Char} (hc : u.isPart c = false)
    {tokens : List Token} (h : Spells u [c] tokens) :
    Spells u (word.toList ++ [c]) (.word word :: tokens) := by
  intro rest
  obtain ⟨first, more, htext, hfirst, hmore⟩ := hword
  have htake : (more ++ c :: rest).takeWhile u.isPart = more := by
    simp [List.takeWhile_append_of_pos hmore, hc]
  have htoken : firstToken? u (first :: (more ++ c :: rest)) =
      some (.word word, more.length + 1) := by
    have hname : String.ofList (first :: more) = word := by rw [← htext, String.ofList_toList]
    rw [firstToken?, if_pos hfirst, htake]
    dsimp only
    rw [hname, List.length_cons]
  have hrest := h rest
  rw [List.singleton_append] at hrest
  rw [htext, List.cons_append, List.cons_append, List.append_assoc, List.singleton_append,
    tokens?_of_firstToken? (by rw [hfirst]; rfl) htoken, hrest, Option.map_map]
  rfl

/-- A word in front of a blank. -/
theorem spells_word_blank {word : String} (hword : u.IsWord word) :
    Spells u (word.toList ++ [' ']) [.word word] :=
  spells_word hword (by rw [u.isPart_of_ascii (by decide)]; decide) (spells_space (.inl rfl))

/-- A word in front of a comma. -/
theorem spells_word_comma {word : String} (hword : u.IsWord word) :
    Spells u (word.toList ++ [',']) [.word word, .mark ','] :=
  spells_word hword (by rw [u.isPart_of_ascii (by decide)]; decide) (spells_mark (by decide))

/-- A written text is one literal. -/
theorem spells_quote (s : String) : Spells u (Text.quote s).toList [.literal s] := by
  intro rest
  have htext : (Text.quote s).toList = '"' :: (Text.escapeAll s.toList ++ ['"']) :=
    Text.toList_quote s
  have hstart : u.isStart '"' = false := by
    rw [u.isStart_of_ascii (by decide)]
    decide
  have hread := Text.Literal.text?_quote_append s rest
  rw [htext, List.cons_append] at hread ⊢
  have htoken : firstToken? u ('"' :: (Text.escapeAll s.toList ++ ['"'] ++ rest)) =
      some (.literal s, (Text.escapeAll s.toList ++ ['"']).length + 1) := by
    have hlength : ('"' :: (Text.escapeAll s.toList ++ ['"'] ++ rest)).length - rest.length =
        (Text.escapeAll s.toList ++ ['"']).length + 1 := by
      rw [List.length_cons, List.length_append]
      omega
    rw [firstToken?, hstart, hread]
    simp only [Bool.false_eq_true, if_false, Option.map_some]
    rw [if_neg (by decide), if_neg (by decide), hlength]
  exact tokens?_of_firstToken? (by rw [hstart]; decide) htoken

/-! ## Lines of a block -/

theorem isWord_import : u.IsWord "import" := u.isWord_of_letters (by decide) (by decide)

theorem isWord_as : u.IsWord "as" := u.isWord_of_letters (by decide) (by decide)

theorem isWord_from : u.IsWord "from" := u.isWord_of_letters (by decide) (by decide)

/-- The end of a declaration. -/
theorem spells_source (specifier : String) :
    Spells u ("from".toList ++ [' '] ++ (Text.quote specifier).toList ++ [';'] ++ ['\n'])
      ([Token.word "from", Token.literal specifier] ++ [Token.mark ';']) := by
  have hfrom := spells_word_blank (u := u) isWord_from
  have hline := ((hfrom.append (spells_quote specifier)).append
    (spells_mark (c := ';') (by decide))).append (spells_space (c := '\n') (.inr rfl))
  simpa using hline

/-- The tokens of a clause that binds a module as a whole. -/
def wholeTokens (c : ImportClause) : List Token :=
  [.word "import", .mark '*', .word "as", .word c.localName, .word "from", .literal c.specifier]

theorem spells_wholeLine {c : ImportClause} (hc : c.Readable u) :
    Spells u c.wholeLine.toList (wholeTokens c ++ [Token.mark ';']) := by
  have himport := spells_word_blank (u := u) isWord_import
  have hstar := (spells_mark (u := u) (c := '*') (by decide)).append
    (spells_space (u := u) (c := ' ') (.inl rfl))
  have has := spells_word_blank (u := u) isWord_as
  have hlocal : Spells u (c.localName.toList ++ [' ']) [.word c.localName] :=
    spells_word_blank hc.2.1
  have htext : c.wholeLine.toList =
      "import".toList ++ [' '] ++ (['*'] ++ [' ']) ++ ("as".toList ++ [' ']) ++
        (c.localName.toList ++ [' ']) ++
        ("from".toList ++ [' '] ++ (Text.quote c.specifier).toList ++ [';'] ++ ['\n']) := by
    unfold ImportClause.wholeLine
    simp
  rw [htext]
  exact (((himport.append hstar).append has).append hlocal).append (spells_source c.specifier)

/-- The tokens of a named binding. -/
def bindingTokens (c : ImportClause) : List Token :=
  if c.exported = c.localName then [.word c.localName]
  else [.word c.exported, .word "as", .word c.localName]

/-- The tokens of named bindings with commas between them. -/
def namedTokens : List ImportClause → List Token
  | [] => []
  | [c] => bindingTokens c
  | c :: rest => bindingTokens c ++ .mark ',' :: namedTokens rest

/-- A named binding in front of what ends its last word. -/
theorem spells_binding {c : ImportClause} (hc : c.Readable u) (hnamed : c.exported ≠ wholeModule)
    {d : Char} {tokens : List Token}
    (hlast : ∀ {word : String}, u.IsWord word →
      Spells u (word.toList ++ [d]) (.word word :: tokens)) :
    Spells u (c.binding.toList ++ [d]) (bindingTokens c ++ tokens) := by
  have hlocal := hlast hc.2.1
  unfold ImportClause.binding bindingTokens
  split
  · exact hlocal
  · have hexported := spells_word_blank (hc.1.resolve_left hnamed)
    have hbinding := (hexported.append (spells_word_blank isWord_as)).append hlocal
    simpa using hbinding

theorem spells_named {named : List ImportClause} (hne : named ≠ [])
    (hreadable : ∀ c ∈ named, c.Readable u) (hnamed : ∀ c ∈ named, c.exported ≠ wholeModule) :
    Spells u ((String.intercalate ", " (named.map (·.binding))).toList ++ [' '])
      (namedTokens named) := by
  induction named with
  | nil => exact absurd rfl hne
  | cons c rest ih =>
    have hc := hreadable c List.mem_cons_self
    have hcn := hnamed c List.mem_cons_self
    cases rest with
    | nil =>
      have hlast : Spells u (c.binding.toList ++ [' ']) (bindingTokens c ++ []) :=
        spells_binding hc hcn fun h => spells_word_blank h
      simpa [namedTokens] using hlast
    | cons next rest =>
      have hfirst : Spells u (c.binding.toList ++ [',']) (bindingTokens c ++ [Token.mark ',']) :=
        spells_binding hc hcn fun h => spells_word_comma h
      have hrest := ih (List.cons_ne_nil next rest)
        (fun d hd => hreadable d (List.mem_cons_of_mem c hd))
        (fun d hd => hnamed d (List.mem_cons_of_mem c hd))
      have hall := (hfirst.append (spells_space (u := u) (c := ' ') (.inl rfl))).append hrest
      simpa [namedTokens, String.intercalate_cons_cons] using hall

/-- The line with the named bindings of a module. -/
def namedLine (specifier : String) (named : List ImportClause) : String :=
  "import \x7b " ++ String.intercalate ", " (named.map (·.binding)) ++ " \x7d from " ++
    Text.quote specifier ++ ";\n"

/-- The tokens of that line in front of its `;`. -/
def namedLineTokens (specifier : String) (named : List ImportClause) : List Token :=
  Token.word "import" :: Token.mark '{' :: (namedTokens named ++ [Token.mark '}']) ++
    [Token.word "from", Token.literal specifier]

theorem spells_namedLine (specifier : String) {named : List ImportClause} (hne : named ≠ [])
    (hreadable : ∀ c ∈ named, c.Readable u) (hnamed : ∀ c ∈ named, c.exported ≠ wholeModule) :
    Spells u (namedLine specifier named).toList
      (namedLineTokens specifier named ++ [Token.mark ';']) := by
  have himport := spells_word_blank (u := u) isWord_import
  have hspace := spells_space (u := u) (c := ' ') (.inl rfl)
  have hopen := (spells_mark (u := u) (c := '{') (by decide)).append hspace
  have hclose := (spells_mark (u := u) (c := '}') (by decide)).append hspace
  have htext : (namedLine specifier named).toList =
      "import".toList ++ [' '] ++ (['{'] ++ [' ']) ++
        ((String.intercalate ", " (named.map (·.binding))).toList ++ [' ']) ++ (['}'] ++ [' ']) ++
        ("from".toList ++ [' '] ++ (Text.quote specifier).toList ++ [';'] ++ ['\n']) := by
    unfold namedLine
    simp
  have htokens : namedLineTokens specifier named ++ [Token.mark ';'] =
      [Token.word "import"] ++ ([Token.mark '{'] ++ []) ++ namedTokens named ++
        ([Token.mark '}'] ++ []) ++
        ([Token.word "from", Token.literal specifier] ++ [Token.mark ';']) := by
    simp [namedLineTokens]
  have hnames := spells_named hne hreadable hnamed
  have hline := (((himport.append hopen).append hnames).append hclose).append
    (spells_source specifier)
  rw [htext, htokens]
  exact hline

end

end ImportBlock

end DaoGen
