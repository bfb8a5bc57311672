import DaoGen.Proofs.Emit.ImportTokens
set_option autoImplicit false

/-!
# Import blocks read back

The tokens of a text are read as ECMAScript reads a list of import declarations: each ends with a
`;` and binds a default, a namespace or names between braces from the source behind `from`.
Exported names that are literals are not read, so `*` as an exported name is the module as a whole.

Reading the text of a block gives the clauses that were asked for (`read?_render`), each once and
with ascending specifiers.  So the text tells sets of clauses apart and says nothing else
(`render_reads_back`).
-/

namespace DaoGen.ImportBlock

/-! ## Declarations -/

/-- Names between braces, each the exported and the local one. -/
def readNamed : List Token → Option (List (String × String))
  | [.mark '}'] => some []
  | [.word name, .mark '}'] => some [(name, name)]
  | .word name :: .mark ',' :: rest => (readNamed rest).map ((name, name) :: ·)
  | [.word exported, .word "as", .word name, .mark '}'] => some [(exported, name)]
  | .word exported :: .word "as" :: .word name :: .mark ',' :: rest =>
    (readNamed rest).map ((exported, name) :: ·)
  | _ => none

/-- A namespace, or names between braces. -/
def readGroup : List Token → Option (List (String × String))
  | [.mark '*', .word "as", .word name] => some [(wholeModule, name)]
  | .mark '{' :: rest => readNamed rest
  | _ => none

/-- What a declaration binds: a default, a group, or both. -/
def readBindings : List Token → Option (List (String × String))
  | [.word name] => some [("default", name)]
  | .word name :: .mark ',' :: rest => (readGroup rest).map (("default", name) :: ·)
  | tokens => readGroup tokens

/-- Cuts the source off the end of a declaration. -/
def cutSource (tokens : List Token) : Option (List Token × String) :=
  match tokens.reverse with
  | .literal specifier :: .word "from" :: before => some (before.reverse, specifier)
  | _ => none

/-- A declaration in front of its `;`.  No local name is a reserved word. -/
def readDeclaration : List Token → Option (List ImportClause)
  | [.word "import", .literal _] => some []
  | .word "import" :: rest =>
    (cutSource rest).bind fun (before, specifier) =>
      (readBindings before).bind fun names =>
        if names.all fun name => !IdentifierTables.reservedWords.contains name.2 then
          some (names.map fun name => ⟨specifier, name.1, name.2⟩)
        else none
  | _ => none

/-- The declarations of a list of tokens, the first of which begins with the tokens that are
pending. -/
def readDeclarations (pending : List Token) : List Token → Option (List ImportClause)
  | [] => if pending = [] then some [] else none
  | token :: rest =>
    if token = .mark ';' then
      (readDeclaration pending).bind fun clauses =>
        (readDeclarations [] rest).map (clauses ++ ·)
    else readDeclarations (pending ++ [token]) rest

variable (u : IdentifierTables)

/-- The clauses of a list of characters. -/
def readChars? (text : List Char) : Option (List ImportClause) :=
  (tokens? u text).bind (readDeclarations [])

/-- The clauses that the import declarations of a text bind, in order. -/
def read? (text : String) : Option (List ImportClause) := readChars? u text.toList

section

variable {u}

/-! ## Reading a line -/

theorem cutSource_append (before : List Token) (specifier : String) :
    cutSource (before ++ [.word "from", .literal specifier]) = some (before, specifier) := by
  simp [cutSource]

/-- The exported and the local name of a clause. -/
def names (c : ImportClause) : String × String := (c.exported, c.localName)

theorem readNamed_namedTokens {named : List ImportClause} (hne : named ≠ []) :
    readNamed (namedTokens named ++ [.mark '}']) = some (named.map names) := by
  induction named with
  | nil => exact absurd rfl hne
  | cons c rest ih =>
    cases rest with
    | nil =>
      by_cases hsame : c.exported = c.localName
      · simp [namedTokens, bindingTokens, hsame, readNamed, names]
      · simp [namedTokens, bindingTokens, hsame, readNamed, names]
    | cons next rest =>
      have hrest := ih (List.cons_ne_nil next rest)
      rw [namedTokens, List.append_assoc, List.cons_append]
      · by_cases hsame : c.exported = c.localName
        · simp [bindingTokens, hsame, readNamed, names, hrest]
        · simp [bindingTokens, hsame, readNamed, names, hrest]
      · exact List.cons_ne_nil next rest

/-- A declaration with a source binds what stands between `import` and `from`. -/
theorem readDeclaration_of_bindings {before : List Token} {bindings : List (String × String)}
    (hbefore : before ≠ []) (hread : readBindings before = some bindings) (specifier : String)
    (hfree : ∀ name ∈ bindings, name.2 ∉ IdentifierTables.reservedWords) :
    readDeclaration (.word "import" :: (before ++ [.word "from", .literal specifier])) =
      some (bindings.map fun name => ⟨specifier, name.1, name.2⟩) := by
  have hall :
      (bindings.all fun name => !IdentifierTables.reservedWords.contains name.2) = true := by
    simpa using hfree
  cases before with
  | nil => exact absurd rfl hbefore
  | cons token rest =>
    rw [List.cons_append, readDeclaration, ← List.cons_append, cutSource_append, Option.bind_some]
    · dsimp only
      rw [hread, Option.bind_some, if_pos hall]
    · simp

theorem readDeclaration_wholeTokens {c : ImportClause} (hc : c.Readable u)
    (hwhole : c.exported = wholeModule) : readDeclaration (wholeTokens c) = some [c] := by
  have hread : readBindings [.mark '*', .word "as", .word c.localName] = some [names c] := by
    rw [names, hwhole]
    rfl
  have hfree : ∀ name ∈ [names c], name.2 ∉ IdentifierTables.reservedWords := by
    intro name hname
    rw [List.mem_singleton.1 hname]
    exact hc.2.2
  exact readDeclaration_of_bindings (List.cons_ne_nil _ _) hread c.specifier hfree

theorem readDeclaration_namedLineTokens {specifier : String} {named : List ImportClause}
    (hne : named ≠ []) (hreadable : ∀ c ∈ named, c.Readable u)
    (hspecifier : ∀ c ∈ named, c.specifier = specifier) :
    readDeclaration (namedLineTokens specifier named) = some named := by
  have hread : readBindings (.mark '{' :: (namedTokens named ++ [.mark '}'])) =
      some (named.map names) := readNamed_namedTokens hne
  have hfree : ∀ name ∈ named.map names, name.2 ∉ IdentifierTables.reservedWords := by
    intro name hname
    obtain ⟨c, hc, rfl⟩ := List.mem_map.1 hname
    exact (hreadable c hc).2.2
  have hnamed : (named.map names).map (fun name => ⟨specifier, name.1, name.2⟩) = named := by
    rw [List.map_map]
    refine (List.map_congr_left fun c hc => ?_).trans (List.map_id named)
    rw [← hspecifier c hc]
    rfl
  have hline := readDeclaration_of_bindings (List.cons_ne_nil _ _) hread specifier hfree
  rw [hnamed] at hline
  exact hline

/-! ## Reading a block -/

/-- A text in front of another one has the given clauses. -/
def Reads (u : IdentifierTables) (text : List Char) (clauses : List ImportClause) : Prop :=
  ∀ rest, readChars? u (text ++ rest) = (readChars? u rest).map (clauses ++ ·)

theorem Reads.append {a b : List Char} {c d : List ImportClause} (ha : Reads u a c)
    (hb : Reads u b d) : Reads u (a ++ b) (c ++ d) := by
  intro rest
  rw [List.append_assoc, ha, hb, Option.map_map]
  simp [Function.comp_def]

theorem reads_nil : Reads u [] [] := by
  intro rest
  simp

theorem reads_join {α : Type} {text : α → String} {clauses : α → List ImportClause} {l : List α}
    (h : ∀ a ∈ l, Reads u (text a).toList (clauses a)) :
    Reads u (String.join (l.map text)).toList (l.flatMap clauses) := by
  induction l with
  | nil => exact reads_nil
  | cons a l ih =>
    rw [List.map_cons, String.join_cons, String.toList_append, List.flatMap_cons]
    exact (h a List.mem_cons_self).append (ih fun b hb => h b (List.mem_cons_of_mem a hb))

/-- The tokens of a declaration wait for its `;`. -/
theorem readDeclarations_append {tokens : List Token} (h : Token.mark ';' ∉ tokens)
    (pending rest : List Token) :
    readDeclarations pending (tokens ++ .mark ';' :: rest) =
      (readDeclaration (pending ++ tokens)).bind fun clauses =>
        (readDeclarations [] rest).map (clauses ++ ·) := by
  induction tokens generalizing pending with
  | nil => rw [List.nil_append, readDeclarations, if_pos rfl, List.append_nil]
  | cons token tokens ih =>
    obtain ⟨hne, htokens⟩ := not_or.1 (mt List.mem_cons.2 h)
    rw [List.cons_append, readDeclarations, if_neg (Ne.symm hne), ih htokens, List.append_assoc]
    rfl

/-- A line that is one declaration. -/
theorem reads_of_spells {text : List Char} {tokens : List Token} {clauses : List ImportClause}
    (hspells : Spells u text (tokens ++ [Token.mark ';'])) (hfree : Token.mark ';' ∉ tokens)
    (hread : readDeclaration tokens = some clauses) : Reads u text clauses := by
  intro rest
  rw [readChars?, hspells, readChars?]
  cases tokens? u rest with
  | none => rfl
  | some more =>
    rw [Option.map_some, Option.bind_some, Option.bind_some, List.append_assoc,
      List.singleton_append, readDeclarations_append hfree, List.nil_append, hread,
      Option.bind_some]

theorem end_notMem_namedTokens (named : List ImportClause) :
    Token.mark ';' ∉ namedTokens named := by
  have hbinding : ∀ c, Token.mark ';' ∉ bindingTokens c := by
    intro c
    unfold bindingTokens
    split <;> simp
  fun_induction namedTokens named with
  | case1 => simp
  | case2 c => exact hbinding c
  | case3 c rest hrest ih => simp [hbinding c, ih]

theorem reads_wholeLine {c : ImportClause} (hc : c.Readable u) (hwhole : c.exported = wholeModule) :
    Reads u c.wholeLine.toList [c] :=
  reads_of_spells (spells_wholeLine hc) (by simp [wholeTokens])
    (readDeclaration_wholeTokens hc hwhole)

theorem reads_namedLine {specifier : String} {named : List ImportClause} (hne : named ≠ [])
    (hreadable : ∀ c ∈ named, c.Readable u) (hnamed : ∀ c ∈ named, c.exported ≠ wholeModule)
    (hspecifier : ∀ c ∈ named, c.specifier = specifier) :
    Reads u (namedLine specifier named).toList named :=
  reads_of_spells (spells_namedLine specifier hne hreadable hnamed)
    (by simp [namedLineTokens, end_notMem_namedTokens])
    (readDeclaration_namedLineTokens hne hreadable hspecifier)

/-- The lines of a module have the clauses that they bind. -/
theorem reads_moduleLines (specifier : String) {clauses : List ImportClause}
    (hreadable : ∀ c ∈ clauses, c.Readable u) :
    Reads u (moduleLines specifier clauses).toList (boundBy specifier clauses) := by
  have hown : ∀ c ∈ clauses.filter (·.specifier = specifier),
      c.Readable u ∧ c.specifier = specifier := by
    intro c hc
    obtain ⟨hmem, hspecifier⟩ := List.mem_filter.1 hc
    exact ⟨hreadable c hmem, of_decide_eq_true hspecifier⟩
  unfold moduleLines boundBy
  dsimp only
  generalize clauses.filter (·.specifier = specifier) = own at hown
  have hwholes : Reads u (String.join ((own.filter (·.isWhole)).map (·.wholeLine))).toList
      (own.filter (·.isWhole)) := by
    have hlines : Reads u (String.join ((own.filter (·.isWhole)).map (·.wholeLine))).toList
        ((own.filter (·.isWhole)).flatMap fun c => [c]) := by
      refine reads_join fun c hc => ?_
      obtain ⟨hmem, hwhole⟩ := List.mem_filter.1 hc
      exact reads_wholeLine (hown c hmem).1 (of_decide_eq_true hwhole)
    rwa [List.flatMap_singleton'] at hlines
  rw [String.toList_append]
  refine hwholes.append ?_
  split
  · rename_i hempty
    rw [List.isEmpty_iff.1 hempty]
    exact reads_nil
  · rename_i hne
    have hnamed : ∀ c ∈ own.filter (!·.isWhole), c ∈ own ∧ c.exported ≠ wholeModule := by
      intro c hc
      obtain ⟨hmem, hnot⟩ := List.mem_filter.1 hc
      exact ⟨hmem, by simpa [ImportClause.isWhole] using hnot⟩
    exact reads_namedLine (fun hnil => hne (List.isEmpty_iff.2 hnil))
      (fun c hc => (hown c (hnamed c hc).1).1) (fun c hc => (hnamed c hc).2)
      (fun c hc => (hown c (hnamed c hc).1).2)

/-- The text of a block has the clauses that its lines bind. -/
theorem read?_render {asked : List ImportClause} (h : ∀ c ∈ asked, c.Readable u) :
    read? u (render asked) = some (bound asked) := by
  have hblock : Reads u (render asked).toList (bound asked) :=
    reads_join fun s _ => reads_moduleLines s fun c hc => h c (mem_clauses.1 hc)
  have hread := hblock []
  rw [List.append_nil] at hread
  rw [read?, hread]
  show some (bound asked ++ []) = _
  rw [List.append_nil]

end

/-! ## What the text says -/

theorem pairwise_bound (asked : List ImportClause) :
    (bound asked).Pairwise fun a b => a.specifier ≤ b.specifier := by
  have hspecifier : ∀ s c, c ∈ boundBy s (clauses asked) → c.specifier = s := by
    intro s c hc
    rcases List.mem_append.1 hc with hc | hc
    · exact of_decide_eq_true (List.mem_filter.1 (List.mem_filter.1 hc).1).2
    · exact of_decide_eq_true (List.mem_filter.1 (List.mem_filter.1 hc).1).2
  rw [bound, List.pairwise_flatMap]
  constructor
  · intro s _
    refine List.pairwise_of_forall_mem_list fun a ha b hb => ?_
    rw [hspecifier s a ha, hspecifier s b hb]
  · refine (specifiers_clauses_spec asked).1.imp fun {s t} hst a ha b hb => ?_
    rw [hspecifier s a ha, hspecifier t b hb]
    exact hst.1

/-- The same clauses are written alike, however often and in whatever order they were asked
for. -/
theorem render_eq_of_mem_iff {asked other : List ImportClause} (h : ∀ c, c ∈ other ↔ c ∈ asked) :
    render other = render asked := by
  have hclauses : clauses other = clauses asked := by
    have hmem : ∀ c, c ∈ clauses other ↔ c ∈ clauses asked := fun c => by
      rw [mem_clauses, mem_clauses, h]
    have hperm : (clauses other).Perm (clauses asked) :=
      (List.perm_ext_iff_of_nodup (nodup_clauses other) (nodup_clauses asked)).2 hmem
    exact hperm.eq_of_pairwise (fun a b _ _ hab hba => ImportClause.le_antisymm a b hab.1 hba.1)
      (clauses_spec other).1 (clauses_spec asked).1
  rw [render, render, hclauses]

/-- Read back, the text of a block binds what was asked for: each clause once and no other, with
ascending specifiers.  So another block is written alike exactly when it asks for the same
clauses. -/
theorem render_reads_back (u : IdentifierTables) (asked : List ImportClause)
    (h : ∀ c ∈ asked, c.Readable u) :
    (∃ clauses, read? u (render asked) = some clauses ∧ clauses.Nodup ∧
      (∀ c, c ∈ clauses ↔ c ∈ asked) ∧ clauses.Pairwise fun a b => a.specifier ≤ b.specifier) ∧
    ∀ other : List ImportClause, (∀ c ∈ other, c.Readable u) →
      (render other = render asked ↔ ∀ c, c ∈ other ↔ c ∈ asked) := by
  have hmem : ∀ asked c, c ∈ bound asked ↔ c ∈ asked := fun asked c =>
    (bound_perm asked).mem_iff.trans mem_clauses
  refine ⟨⟨bound asked, read?_render h, ?_, hmem asked, pairwise_bound asked⟩,
    fun other hother => ⟨fun heq c => ?_, render_eq_of_mem_iff⟩⟩
  · exact (bound_perm asked).nodup_iff.2 (nodup_clauses asked)
  · have hread := read?_render hother
    rw [heq, read?_render h] at hread
    rw [← hmem other, ← hmem asked, Option.some.inj hread]

/-- Two namespaces and three names of one module, one of them asked for twice, and a specifier with
a quote, a backslash and an end of a line. -/
theorem render_reads_back_mixed :
    let asked : List ImportClause :=
      [⟨"@acme/keys", "*", "more"⟩, ⟨"./it's \"\\\n", "default", "Row"⟩,
        ⟨"@acme/keys", "as", "from"⟩, ⟨"@acme/keys", "*", "keys"⟩, ⟨"@acme/keys", "as", "as"⟩,
        ⟨"@acme/keys", "as", "from"⟩, ⟨"@acme/keys", "Uuid", "Uuid"⟩]
    (∀ c ∈ asked, c.Readable .ascii) ∧
      render asked =
        "import \x7b default as Row \x7d from \"./it's \\\"\\\\\\n\";\n" ++
          "import * as keys from \"@acme/keys\";\nimport * as more from \"@acme/keys\";\n" ++
          "import \x7b Uuid, as, as as from \x7d from \"@acme/keys\";\n" ∧
      (∃ clauses, read? .ascii (render asked) = some clauses ∧ clauses.Nodup ∧
        ∀ c, c ∈ clauses ↔ c ∈ asked) ∧
      render asked.reverse = render asked := by
  intro asked
  have hreadable : ∀ c ∈ asked, c.Readable .ascii := by decide +kernel
  obtain ⟨⟨clauses, hread, hnodup, hmem, -⟩, hsame⟩ := render_reads_back .ascii asked hreadable
  refine ⟨hreadable, by decide +kernel, ⟨clauses, hread, hnodup, hmem⟩, ?_⟩
  exact (hsame asked.reverse fun c hc => hreadable c (List.mem_reverse.1 hc)).2
    fun c => List.mem_reverse

end DaoGen.ImportBlock
