import DaoGen.Proofs.Syntax.Production
set_option autoImplicit false

/-!
# Words of rules

A production of a rule lists the symbols of one of the words of its form, atom by atom and in order
(`exists_word_of_mem_productions`).  Symbols of atoms are told apart: that of a token by the number
of the token, that of a phrase by the number of the phrase, and that of a repetition by the place of
what it repeats in the alphabet.
-/

namespace DaoGen.Syntax

/-! ## Words of a form -/

/-- Atoms in a row, with what each is to the node of its rule. -/
abbrev Word := List (Atom × Part)

mutual

/-- All words that a form can be read as. -/
def Form.words : Form → List Word
  | .blank => [[]]
  | .token t => [[(.token t, {})]]
  | .phrase p => [[(.phrase p, {})]]
  | .seq forms => Form.wordsInRow forms
  | .choice forms => Form.wordsOfAny forms
  | .repeated form => [[(.repeated form, {})]]
  | .bound _ _ form => Form.words form
  | .weighed _ form => Form.words form
  | .inRole role form => (Form.words form).map (·.map fun (x, p) => (x, { p with role }))
  | .ofKind kind form =>
    (Form.words form).map (·.map fun (x, p) => (x, { p with kind := some kind }))

/-- All words of forms one after the other. -/
def Form.wordsInRow : List Form → List Word
  | [] => [[]]
  | form :: rest => (Form.words form).flatMap fun first => (Form.wordsInRow rest).map (first ++ ·)

/-- All words of one of some forms. -/
def Form.wordsOfAny : List Form → List Word
  | [] => []
  | form :: rest => Form.words form ++ Form.wordsOfAny rest

end

/-- The words of a repetition: two repetitions, or what is repeated. -/
def Form.rounds (form : Form) : List Word :=
  [(.repeated form, {}), (.repeated form, {})] :: form.words

/-- The steps that a word stands for. -/
def Alphabet.stepsOf (a : Alphabet) (word : Word) : List (Symbol × Part) :=
  word.map fun (x, p) => (a.symbolOf x, p)

section Drafts

variable {a : Alphabet}

theorem stepsOf_append (first rest : Word) :
    a.stepsOf (first ++ rest) = a.stepsOf first ++ a.stepsOf rest :=
  List.map_append

/-- What is said of all parts of some drafts is said of those of their words. -/
theorem steps_map_mapParts {drafts : List Draft} {words : List Word}
    (h : drafts.map (·.steps) = words.map a.stepsOf) (f : Part → Part) :
    (drafts.map (·.mapParts f)).map (·.steps) =
      (words.map (·.map fun step => (step.1, f step.2))).map a.stepsOf := by
  have hparts := congrArg (List.map (List.map fun step => (step.1, f step.2))) h
  rw [List.map_map, List.map_map] at hparts ⊢
  refine hparts.trans (List.map_congr_left fun word _ => ?_)
  simp only [Function.comp_apply, Alphabet.stepsOf, List.map_map, Function.comp_def]

mutual

/-- The drafts of a form list the words of it. -/
theorem steps_drafts : (form : Form) →
    (form.drafts a).map (·.steps) = form.words.map a.stepsOf
  | .blank => rfl
  | .token _ => rfl
  | .phrase _ => rfl
  | .seq forms => by
    rw [Form.drafts, Form.words]
    exact steps_draftsInRow forms
  | .choice forms => by
    rw [Form.drafts, Form.words]
    exact steps_draftsOfAny forms
  | .repeated _ => rfl
  | .bound _ _ form => by
    rw [Form.drafts, Form.words, ← steps_drafts form, List.map_map]
    rfl
  | .weighed _ form => by
    rw [Form.drafts, Form.words, ← steps_drafts form, List.map_map]
    rfl
  | .inRole _ form => by
    rw [Form.drafts, Form.words]
    exact steps_map_mapParts (steps_drafts form) _
  | .ofKind _ form => by
    rw [Form.drafts, Form.words]
    exact steps_map_mapParts (steps_drafts form) _

theorem steps_draftsInRow : (forms : List Form) →
    (Form.draftsInRow a forms).map (·.steps) = (Form.wordsInRow forms).map a.stepsOf
  | [] => rfl
  | form :: rest => by
    have hfirst := steps_drafts form
    have hrest := steps_draftsInRow rest
    rw [Form.draftsInRow, Form.wordsInRow]
    simp only [List.map_flatMap, List.map_map, Function.comp_def, stepsOf_append]
    calc (form.drafts a).flatMap fun first => (Form.draftsInRow a rest).map fun d =>
          first.steps ++ d.steps
      _ = ((form.drafts a).map (·.steps)).flatMap fun first =>
          ((Form.draftsInRow a rest).map (·.steps)).map (first ++ ·) := by
        simp only [List.flatMap_map, List.map_map, Function.comp_def]
      _ = (form.words.map a.stepsOf).flatMap fun first =>
          ((Form.wordsInRow rest).map a.stepsOf).map (first ++ ·) := by rw [hfirst, hrest]
      _ = form.words.flatMap fun first => (Form.wordsInRow rest).map fun word =>
          a.stepsOf first ++ a.stepsOf word := by
        simp only [List.flatMap_map, List.map_map, Function.comp_def]

theorem steps_draftsOfAny : (forms : List Form) →
    (Form.draftsOfAny a forms).map (·.steps) = (Form.wordsOfAny forms).map a.stepsOf
  | [] => rfl
  | form :: rest => by
    rw [Form.draftsOfAny, Form.wordsOfAny, List.map_append, List.map_append, steps_drafts form,
      steps_draftsOfAny rest]

end

theorem exists_word_of_mem_drafts {form : Form} {d : Draft} (h : d ∈ form.drafts a) :
    ∃ word ∈ form.words, d.steps = a.stepsOf word := by
  have hsteps : d.steps ∈ form.words.map a.stepsOf := by
    rw [← steps_drafts]
    exact List.mem_map_of_mem h
  obtain ⟨word, hword, heq⟩ := List.mem_map.1 hsteps
  exact ⟨word, hword, heq.symm⟩

end Drafts

/-- Every production lists a word of a rule, or one of a repetition. -/
theorem exists_word_of_mem_productions {a : Alphabet} {rules : List Rule} {p : Production}
    (h : p ∈ a.productions rules) :
    (∃ rule ∈ rules, p.head = rule.1.number ∧ p.kind = rule.1.kind? ∧
      ∃ word ∈ rule.2.words, p.steps = a.stepsOf word) ∨
    ∃ form ∈ a.repetitions, .phrase p.head = a.repetition form ∧ p.kind = none ∧
      ∃ word ∈ form.rounds, p.steps = a.stepsOf word := by
  unfold Alphabet.productions at h
  rcases List.mem_append.1 h with h | h
  · left
    obtain ⟨rule, hrule, hp⟩ := List.mem_flatMap.1 h
    obtain ⟨d, hd, rfl⟩ := List.mem_map.1 hp
    exact ⟨rule, hrule, rfl, rfl, exists_word_of_mem_drafts hd⟩
  · right
    obtain ⟨form, hform, hp⟩ := List.mem_flatMap.1 h
    unfold Alphabet.productionsOfRepetition Alphabet.repetition at hp
    refine ⟨form, hform, ?_⟩
    rcases List.mem_cons.1 hp with rfl | hp
    · exact ⟨rfl, rfl, _, List.mem_cons_self, rfl⟩
    · obtain ⟨d, hd, rfl⟩ := List.mem_map.1 hp
      obtain ⟨word, hword, hsteps⟩ := exists_word_of_mem_drafts hd
      exact ⟨rfl, rfl, word, List.mem_cons_of_mem _ hword, hsteps⟩

/-! ## Atoms of words -/

mutual

/-- A word is made of atoms of its form. -/
theorem mem_atoms_of_mem_words : (form : Form) → ∀ word ∈ form.words, ∀ step ∈ word,
    step ∈ form.atoms
  | .blank, word, hword, step, hstep => by
    rw [Form.words, List.mem_singleton] at hword
    subst hword
    cases hstep
  | .token t, word, hword, step, hstep => by
    rw [Form.words, List.mem_singleton] at hword
    subst hword
    exact hstep
  | .phrase p, word, hword, step, hstep => by
    rw [Form.words, List.mem_singleton] at hword
    subst hword
    exact hstep
  | .seq forms, word, hword, step, hstep => by
    rw [Form.words] at hword
    rw [Form.atoms]
    exact mem_atomsOf_of_mem_wordsInRow forms word hword step hstep
  | .choice forms, word, hword, step, hstep => by
    rw [Form.words] at hword
    rw [Form.atoms]
    exact mem_atomsOf_of_mem_wordsOfAny forms word hword step hstep
  | .repeated form, word, hword, step, hstep => by
    rw [Form.words, List.mem_singleton] at hword
    subst hword
    exact hstep
  | .bound _ _ form, word, hword, step, hstep => by
    rw [Form.words] at hword
    rw [Form.atoms]
    exact mem_atoms_of_mem_words form word hword step hstep
  | .weighed _ form, word, hword, step, hstep => by
    rw [Form.words] at hword
    rw [Form.atoms]
    exact mem_atoms_of_mem_words form word hword step hstep
  | .inRole role form, word, hword, step, hstep => by
    rw [Form.words] at hword
    obtain ⟨inner, hinner, rfl⟩ := List.mem_map.1 hword
    obtain ⟨⟨x, p⟩, hmem, rfl⟩ := List.mem_map.1 hstep
    rw [Form.atoms]
    exact List.mem_map_of_mem (mem_atoms_of_mem_words form inner hinner (x, p) hmem)
  | .ofKind kind form, word, hword, step, hstep => by
    rw [Form.words] at hword
    obtain ⟨inner, hinner, rfl⟩ := List.mem_map.1 hword
    obtain ⟨⟨x, p⟩, hmem, rfl⟩ := List.mem_map.1 hstep
    rw [Form.atoms]
    exact List.mem_map_of_mem (mem_atoms_of_mem_words form inner hinner (x, p) hmem)

theorem mem_atomsOf_of_mem_wordsInRow : (forms : List Form) → ∀ word ∈ Form.wordsInRow forms,
    ∀ step ∈ word, step ∈ Form.atomsOf forms
  | [], word, hword, step, hstep => by
    rw [Form.wordsInRow, List.mem_singleton] at hword
    subst hword
    cases hstep
  | form :: rest, word, hword, step, hstep => by
    rw [Form.wordsInRow] at hword
    obtain ⟨first, hfirst, hword⟩ := List.mem_flatMap.1 hword
    obtain ⟨after, hafter, rfl⟩ := List.mem_map.1 hword
    rw [Form.atomsOf]
    rcases List.mem_append.1 hstep with hstep | hstep
    · exact List.mem_append_left _ (mem_atoms_of_mem_words form first hfirst step hstep)
    · exact List.mem_append_right _ (mem_atomsOf_of_mem_wordsInRow rest after hafter step hstep)

theorem mem_atomsOf_of_mem_wordsOfAny : (forms : List Form) → ∀ word ∈ Form.wordsOfAny forms,
    ∀ step ∈ word, step ∈ Form.atomsOf forms
  | [], word, hword, _, _ => by
    rw [Form.wordsOfAny] at hword
    cases hword
  | form :: rest, word, hword, step, hstep => by
    rw [Form.wordsOfAny] at hword
    rw [Form.atomsOf]
    rcases List.mem_append.1 hword with hword | hword
    · exact List.mem_append_left _ (mem_atoms_of_mem_words form word hword step hstep)
    · exact List.mem_append_right _ (mem_atomsOf_of_mem_wordsOfAny rest word hword step hstep)

end

/-- A round is made of atoms of what is repeated, or of the repetition itself. -/
theorem eq_or_mem_atoms_of_mem_rounds {form : Form} {word : Word} (h : word ∈ form.rounds)
    {step : Atom × Part} (hstep : step ∈ word) :
    step = (.repeated form, {}) ∨ step ∈ form.atoms := by
  rcases List.mem_cons.1 h with rfl | h
  · left
    simpa using hstep
  · exact .inr (mem_atoms_of_mem_words form word h step hstep)

/-- An atom that is a phrase, or one of some tokens or repetitions. -/
def Atom.IsAmong (tokens : List Token) (repetitions : List Form) : Atom → Prop
  | token t => t ∈ tokens
  | phrase _ => True
  | repeated form => form ∈ repetitions

theorem Atom.IsAmong.mono {tokens more : List Token} {repetitions others : List Form} {x : Atom}
    (h : x.IsAmong tokens repetitions) (htokens : tokens ⊆ more)
    (hrepetitions : repetitions ⊆ others) : x.IsAmong more others := by
  cases x with
  | token t => exact htokens h
  | phrase p => trivial
  | repeated form => exact hrepetitions h

mutual

theorem isAmong_of_mem_atoms : (form : Form) → ∀ step ∈ form.atoms,
    step.1.IsAmong form.tokens form.repetitions
  | .blank, step, hstep => by cases hstep
  | .token t, step, hstep => by
    rw [Form.atoms, List.mem_singleton] at hstep
    subst hstep
    exact List.mem_singleton_self t
  | .phrase p, step, hstep => by
    rw [Form.atoms, List.mem_singleton] at hstep
    subst hstep
    trivial
  | .seq forms, step, hstep => by
    rw [Form.atoms] at hstep
    rw [Form.tokens, Form.repetitions]
    exact isAmong_of_mem_atomsOf forms step hstep
  | .choice forms, step, hstep => by
    rw [Form.atoms] at hstep
    rw [Form.tokens, Form.repetitions]
    exact isAmong_of_mem_atomsOf forms step hstep
  | .repeated form, step, hstep => by
    rw [Form.atoms, List.mem_singleton] at hstep
    subst hstep
    rw [Form.repetitions]
    exact List.mem_append_right _ (List.mem_singleton_self form)
  | .bound _ _ form, step, hstep => by
    rw [Form.atoms] at hstep
    rw [Form.tokens, Form.repetitions]
    exact isAmong_of_mem_atoms form step hstep
  | .weighed _ form, step, hstep => by
    rw [Form.atoms] at hstep
    rw [Form.tokens, Form.repetitions]
    exact isAmong_of_mem_atoms form step hstep
  | .inRole _ form, step, hstep => by
    rw [Form.atoms] at hstep
    obtain ⟨⟨x, p⟩, hmem, rfl⟩ := List.mem_map.1 hstep
    rw [Form.tokens, Form.repetitions]
    exact isAmong_of_mem_atoms form (x, p) hmem
  | .ofKind _ form, step, hstep => by
    rw [Form.atoms] at hstep
    obtain ⟨⟨x, p⟩, hmem, rfl⟩ := List.mem_map.1 hstep
    rw [Form.tokens, Form.repetitions]
    exact isAmong_of_mem_atoms form (x, p) hmem

theorem isAmong_of_mem_atomsOf : (forms : List Form) → ∀ step ∈ Form.atomsOf forms,
    step.1.IsAmong (Form.tokensOf forms) (Form.repetitionsOf forms)
  | [], step, hstep => by cases hstep
  | form :: rest, step, hstep => by
    rw [Form.atomsOf] at hstep
    rw [Form.tokensOf, Form.repetitionsOf]
    rcases List.mem_append.1 hstep with hstep | hstep
    · exact (isAmong_of_mem_atoms form step hstep).mono (List.subset_append_left _ _)
        (List.subset_append_left _ _)
    · exact (isAmong_of_mem_atomsOf rest step hstep).mono (List.subset_append_right _ _)
        (List.subset_append_right _ _)

end

mutual

/-- What is repeated inside of a form has no other tokens and repetitions than the form. -/
theorem subset_of_mem_repetitions : (form : Form) → ∀ inner ∈ form.repetitions,
    inner.tokens ⊆ form.tokens ∧ inner.repetitions ⊆ form.repetitions
  | .blank, inner, h => by cases h
  | .token _, inner, h => by cases h
  | .phrase _, inner, h => by cases h
  | .seq forms, inner, h => by
    rw [Form.repetitions] at h ⊢
    rw [Form.tokens]
    exact subset_of_mem_repetitionsOf forms inner h
  | .choice forms, inner, h => by
    rw [Form.repetitions] at h ⊢
    rw [Form.tokens]
    exact subset_of_mem_repetitionsOf forms inner h
  | .repeated form, inner, h => by
    rw [Form.repetitions] at h ⊢
    rw [Form.tokens]
    rcases List.mem_append.1 h with h | h
    · obtain ⟨htokens, hrepetitions⟩ := subset_of_mem_repetitions form inner h
      exact ⟨htokens, List.Subset.trans hrepetitions (List.subset_append_left _ _)⟩
    · rw [List.mem_singleton.1 h]
      exact ⟨List.Subset.refl _, List.subset_append_left _ _⟩
  | .bound _ _ form, inner, h => by
    rw [Form.repetitions] at h ⊢
    rw [Form.tokens]
    exact subset_of_mem_repetitions form inner h
  | .weighed _ form, inner, h => by
    rw [Form.repetitions] at h ⊢
    rw [Form.tokens]
    exact subset_of_mem_repetitions form inner h
  | .inRole _ form, inner, h => by
    rw [Form.repetitions] at h ⊢
    rw [Form.tokens]
    exact subset_of_mem_repetitions form inner h
  | .ofKind _ form, inner, h => by
    rw [Form.repetitions] at h ⊢
    rw [Form.tokens]
    exact subset_of_mem_repetitions form inner h

theorem subset_of_mem_repetitionsOf : (forms : List Form) → ∀ inner ∈ Form.repetitionsOf forms,
    inner.tokens ⊆ Form.tokensOf forms ∧ inner.repetitions ⊆ Form.repetitionsOf forms
  | [], inner, h => by cases h
  | form :: rest, inner, h => by
    rw [Form.repetitionsOf] at h ⊢
    rw [Form.tokensOf]
    rcases List.mem_append.1 h with h | h
    · obtain ⟨htokens, hrepetitions⟩ := subset_of_mem_repetitions form inner h
      exact ⟨List.Subset.trans htokens (List.subset_append_left _ _),
        List.Subset.trans hrepetitions (List.subset_append_left _ _)⟩
    · obtain ⟨htokens, hrepetitions⟩ := subset_of_mem_repetitionsOf rest inner h
      exact ⟨List.Subset.trans htokens (List.subset_append_right _ _),
        List.Subset.trans hrepetitions (List.subset_append_right _ _)⟩

end

end DaoGen.Syntax
