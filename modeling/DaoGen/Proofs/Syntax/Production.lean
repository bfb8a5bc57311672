import Std.Data.HashMap.Lemmas
import Mathlib.Data.List.Nodup
import DaoGen.Syntax.Production
set_option autoImplicit false

/-!
# Rules and their productions

A production lists symbols by number, a rule names the tokens and phrases it is made of.
Every step of a production comes from such an atom of its rule, in the role and of the kind
that the rule gives it there (`exists_source_of_mem_productions`), and the number of a token
tells it from all other tokens (`eq_of_number_eq`).  So what holds of the atoms of a rule can
be said of all that is read by it.
-/

namespace DaoGen.Syntax

/-! ## Atoms of forms -/

/-- What a single step of a form reads. -/
inductive Atom where
  | token (t : Token)
  | phrase (p : Phrase)
  /-- any number of times what a form reads -/
  | repeated (form : Form)

mutual

/-- The atoms of a form, with what they are to the node of its rule. -/
def Form.atoms : Form → List (Atom × Part)
  | .blank => []
  | .token t => [(.token t, {})]
  | .phrase p => [(.phrase p, {})]
  | .seq forms => Form.atomsOf forms
  | .choice forms => Form.atomsOf forms
  | .repeated form => [(.repeated form, {})]
  | .bound _ _ form => Form.atoms form
  | .weighed _ form => Form.atoms form
  | .inRole role form => (Form.atoms form).map fun (x, p) => (x, { p with role })
  | .ofKind kind form => (Form.atoms form).map fun (x, p) => (x, { p with kind := some kind })

/-- The atoms of a list of forms. -/
def Form.atomsOf : List Form → List (Atom × Part)
  | [] => []
  | form :: rest => Form.atoms form ++ Form.atomsOf rest

end

/-- The symbol of an atom. -/
def Alphabet.symbolOf (a : Alphabet) : Atom → Symbol
  | .token t => a.symbol t
  | .phrase p => .phrase p.number
  | .repeated form => a.repetition form

/-- A step that stands for one of some atoms. -/
def Alphabet.Reads (a : Alphabet) (atoms : List (Atom × Part)) (step : Symbol × Part) : Prop :=
  ∃ atom, (atom, step.2) ∈ atoms ∧ step.1 = a.symbolOf atom

section Drafts

variable {a : Alphabet}

theorem Alphabet.Reads.mono {atoms more : List (Atom × Part)} {step : Symbol × Part}
    (h : a.Reads atoms step) (hmore : atoms ⊆ more) : a.Reads more step := by
  obtain ⟨atom, hmem, hsymbol⟩ := h
  exact ⟨atom, hmore hmem, hsymbol⟩

theorem Alphabet.Reads.map {atoms : List (Atom × Part)} {step : Symbol × Part}
    (h : a.Reads atoms step) (f : Part → Part) :
    a.Reads (atoms.map fun (x, p) => (x, f p)) (step.1, f step.2) := by
  obtain ⟨atom, hmem, hsymbol⟩ := h
  exact ⟨atom, List.mem_map.2 ⟨_, hmem, rfl⟩, hsymbol⟩

theorem reads_mapParts {atoms : List (Atom × Part)} {d : Draft} {step : Symbol × Part}
    {f : Part → Part} (hd : ∀ step ∈ d.steps, a.Reads atoms step)
    (hstep : step ∈ (d.mapParts f).steps) : a.Reads (atoms.map fun (x, p) => (x, f p)) step := by
  obtain ⟨inner, hinner, rfl⟩ := List.mem_map.1 hstep
  exact (hd inner hinner).map f

mutual

/-- Every step of a draft stands for an atom of its form. -/
theorem reads_of_mem_drafts : (form : Form) → ∀ d ∈ form.drafts a, ∀ step ∈ d.steps,
    a.Reads form.atoms step
  | .blank, d, hd, step, hstep => by
    rw [Form.drafts, List.mem_singleton] at hd
    subst hd
    cases hstep
  | .token t, d, hd, step, hstep => by
    rw [Form.drafts, List.mem_singleton] at hd
    subst hd
    rw [List.mem_singleton.1 hstep]
    exact ⟨.token t, List.mem_singleton_self _, rfl⟩
  | .phrase p, d, hd, step, hstep => by
    rw [Form.drafts, List.mem_singleton] at hd
    subst hd
    rw [List.mem_singleton.1 hstep]
    exact ⟨.phrase p, List.mem_singleton_self _, rfl⟩
  | .seq forms, d, hd, step, hstep => by
    rw [Form.drafts] at hd
    rw [Form.atoms]
    exact reads_of_mem_draftsInRow forms d hd step hstep
  | .choice forms, d, hd, step, hstep => by
    rw [Form.drafts] at hd
    rw [Form.atoms]
    exact reads_of_mem_draftsOfAny forms d hd step hstep
  | .repeated form, d, hd, step, hstep => by
    rw [Form.drafts, List.mem_singleton] at hd
    subst hd
    rw [List.mem_singleton.1 hstep]
    exact ⟨.repeated form, List.mem_singleton_self _, rfl⟩
  | .bound rank side form, d, hd, step, hstep => by
    rw [Form.drafts] at hd
    obtain ⟨inner, hinner, rfl⟩ := List.mem_map.1 hd
    rw [Form.atoms]
    exact reads_of_mem_drafts form inner hinner step hstep
  | .weighed weight form, d, hd, step, hstep => by
    rw [Form.drafts] at hd
    obtain ⟨inner, hinner, rfl⟩ := List.mem_map.1 hd
    rw [Form.atoms]
    exact reads_of_mem_drafts form inner hinner step hstep
  | .inRole role form, d, hd, step, hstep => by
    rw [Form.drafts] at hd
    obtain ⟨inner, hinner, rfl⟩ := List.mem_map.1 hd
    rw [Form.atoms]
    exact reads_mapParts (reads_of_mem_drafts form inner hinner) hstep
  | .ofKind kind form, d, hd, step, hstep => by
    rw [Form.drafts] at hd
    obtain ⟨inner, hinner, rfl⟩ := List.mem_map.1 hd
    rw [Form.atoms]
    exact reads_mapParts (reads_of_mem_drafts form inner hinner) hstep

theorem reads_of_mem_draftsInRow : (forms : List Form) → ∀ d ∈ Form.draftsInRow a forms,
    ∀ step ∈ d.steps, a.Reads (Form.atomsOf forms) step
  | [], d, hd, step, hstep => by
    rw [Form.draftsInRow, List.mem_singleton] at hd
    subst hd
    cases hstep
  | form :: rest, d, hd, step, hstep => by
    rw [Form.draftsInRow] at hd
    obtain ⟨first, hfirst, hd⟩ := List.mem_flatMap.1 hd
    obtain ⟨after, hafter, rfl⟩ := List.mem_map.1 hd
    rw [Form.atomsOf]
    rcases List.mem_append.1 hstep with hstep | hstep
    · exact (reads_of_mem_drafts form first hfirst step hstep).mono (List.subset_append_left _ _)
    · exact (reads_of_mem_draftsInRow rest after hafter step hstep).mono
        (List.subset_append_right _ _)

theorem reads_of_mem_draftsOfAny : (forms : List Form) → ∀ d ∈ Form.draftsOfAny a forms,
    ∀ step ∈ d.steps, a.Reads (Form.atomsOf forms) step
  | [], d, hd, _, _ => by
    rw [Form.draftsOfAny] at hd
    cases hd
  | form :: rest, d, hd, step, hstep => by
    rw [Form.draftsOfAny] at hd
    rw [Form.atomsOf]
    rcases List.mem_append.1 hd with hd | hd
    · exact (reads_of_mem_drafts form d hd step hstep).mono (List.subset_append_left _ _)
    · exact (reads_of_mem_draftsOfAny rest d hd step hstep).mono (List.subset_append_right _ _)

end

end Drafts

/-! ## Where productions come from -/

/-- A production of a rule: it has the head and the kind of the rule and reads its atoms. -/
def Alphabet.OfRule (a : Alphabet) (rule : Rule) (p : Production) : Prop :=
  p.head = rule.1.number ∧ p.kind = rule.1.kind? ∧ ∀ step ∈ p.steps, a.Reads rule.2.atoms step

/-- A production of a repetition: its head is no phrase of the grammar, and it reads what is
repeated, or the repetition itself. -/
def Alphabet.OfRepetition (a : Alphabet) (form : Form) (p : Production) : Prop :=
  Alphabet.phraseCount ≤ p.head ∧ p.kind = none ∧
    ∀ step ∈ p.steps, step = (.phrase p.head, {}) ∨ a.Reads form.atoms step

/-- Every production comes from a rule or from what a rule repeats. -/
theorem exists_source_of_mem_productions {a : Alphabet} {rules : List Rule} {p : Production}
    (h : p ∈ a.productions rules) :
    (∃ rule ∈ rules, a.OfRule rule p) ∨ ∃ form ∈ a.repetitions, a.OfRepetition form p := by
  unfold Alphabet.productions at h
  rcases List.mem_append.1 h with h | h
  · left
    obtain ⟨rule, hrule, hp⟩ := List.mem_flatMap.1 h
    obtain ⟨d, hd, rfl⟩ := List.mem_map.1 hp
    exact ⟨rule, hrule, rfl, rfl, reads_of_mem_drafts rule.2 d hd⟩
  · right
    obtain ⟨form, hform, hp⟩ := List.mem_flatMap.1 h
    unfold Alphabet.productionsOfRepetition Alphabet.repetition at hp
    refine ⟨form, hform, ?_⟩
    rcases List.mem_cons.1 hp with rfl | hp
    · refine ⟨Nat.le_add_right _ _, rfl, fun step hstep => .inl ?_⟩
      simpa using hstep
    · obtain ⟨d, hd, rfl⟩ := List.mem_map.1 hp
      exact ⟨Nat.le_add_right _ _, rfl, fun step hstep => .inr (reads_of_mem_drafts form d hd step hstep)⟩

/-! ## The numbers of tokens -/

section Distinct

variable {α : Type} [BEq α]

theorem mem_of_mem_distinct {items : List α} {x : α} (h : x ∈ distinct items) : x ∈ items := by
  have hall : ∀ x ∈ distinct items, x ∈ items := by
    unfold distinct
    simp only [List.mem_reverse]
    refine List.foldlRecOn items _ (motive := fun seen : List α => ∀ x ∈ seen, x ∈ items)
      (fun _ hx => by cases hx) ?_
    intro seen hseen item hitem
    split
    · exact hseen
    · intro x hx
      rcases List.mem_cons.1 hx with rfl | hx
      · exact hitem
      · exact hseen x hx
  exact hall x h

theorem head?_distinct (first : α) (rest : List α) :
    (distinct (first :: rest)).head? = some first := by
  unfold distinct
  rw [List.head?_reverse, List.foldl_cons]
  refine List.foldlRecOn rest _ (motive := fun seen : List α => seen.getLast? = some first) rfl ?_
  intro seen hseen item _
  split
  · exact hseen
  · cases seen with
    | nil => cases hseen
    | cons other seen => rw [List.getLast?_cons_cons, hseen]

variable [LawfulBEq α]

theorem mem_distinct_of_mem {items : List α} {x : α} (h : x ∈ items) : x ∈ distinct items := by
  have hfold : ∀ (items seen : List α), x ∈ seen ∨ x ∈ items →
      x ∈ items.foldl (fun seen item => if seen.contains item then seen else item :: seen) seen := by
    intro items
    induction items with
    | nil =>
      rintro seen (hseen | hnil)
      · exact hseen
      · cases hnil
    | cons item rest ih =>
      intro seen hmem
      refine ih _ ?_
      dsimp only
      split
      · rename_i hitem
        rcases hmem with hseen | hmem
        · exact .inl hseen
        · rcases List.mem_cons.1 hmem with rfl | hrest
          · exact .inl (by simpa using hitem)
          · exact .inr hrest
      · rcases hmem with hseen | hmem
        · exact .inl (List.mem_cons_of_mem _ hseen)
        · rcases List.mem_cons.1 hmem with rfl | hrest
          · exact .inl List.mem_cons_self
          · exact .inr hrest
  exact List.mem_reverse.2 (hfold items [] (.inr h))

theorem nodup_distinct (items : List α) : (distinct items).Nodup := by
  unfold distinct
  refine List.nodup_reverse.2 ?_
  refine List.foldlRecOn items _ (motive := fun seen : List α => seen.Nodup) List.nodup_nil ?_
  intro seen hseen item _
  split
  · exact hseen
  · rename_i hnew
    exact List.nodup_cons.2 ⟨by simpa using hnew, hseen⟩

end Distinct

namespace Alphabet

variable {rules : List Rule} {t other : Token}

/-- The tokens of some rules in the order of their numbers. -/
abbrev tokenList (rules : List Rule) : List Token :=
  distinct ([.stop, .name, .comment, .arrowComment] ++ Form.tokensOf (rules.map (·.2)))

theorem repetitions_ofRules (rules : List Rule) :
    (ofRules rules).repetitions = distinct (Form.repetitionsOf (rules.map (·.2))) :=
  rfl

theorem number_of_getElem? {n : Nat} (h : (tokenList rules)[n]? = some t) :
    (ofRules rules).number.getD t 0 = n := by
  have hmem : (t, n) ∈ (tokenList rules).zipIdx := List.mem_zipIdx_iff_getElem?.2 h
  have hpairwise : (tokenList rules).zipIdx.Pairwise fun a b => (a.1 == b.1) = false := by
    have hnodup : ((tokenList rules).zipIdx.map Prod.fst).Nodup := by
      rw [List.zipIdx_map_fst]
      exact nodup_distinct _
    refine (List.pairwise_map.1 hnodup).imp fun hne => ?_
    simpa using hne
  have hget : (ofRules rules).number[t]? = some n :=
    Std.HashMap.getElem?_ofList_of_mem (beq_self_eq_true t) hpairwise hmem
  rw [Std.HashMap.getD_eq_getD_getElem?, hget, Option.getD_some]

theorem number_of_not_mem (h : t ∉ tokenList rules) : (ofRules rules).number.getD t 0 = 0 := by
  have hfree : ((tokenList rules).zipIdx.map Prod.fst).contains t = false := by
    rw [List.zipIdx_map_fst]
    simpa using h
  have hget : (ofRules rules).number[t]? = none :=
    Std.HashMap.getElem?_ofList_of_contains_eq_false hfree
  rw [Std.HashMap.getD_eq_getD_getElem?, hget, Option.getD_none]

/-- A token of the grammar is known by its number: only the end of the text shares its number
with tokens that no rule has. -/
theorem eq_of_number_eq (ht : t ∈ tokenList rules) (hstop : t ≠ .stop)
    (h : (ofRules rules).number.getD other 0 = (ofRules rules).number.getD t 0) : other = t := by
  obtain ⟨n, hn⟩ := List.getElem?_of_mem ht
  have hnumber : (ofRules rules).number.getD t 0 = n := number_of_getElem? hn
  have hzero : n ≠ 0 := by
    rintro rfl
    have hfirst : (tokenList rules)[0]? = some .stop := by
      rw [← List.head?_eq_getElem?]
      exact head?_distinct _ _
    exact hstop (Option.some.inj (hn.symm.trans hfirst))
  by_cases hother : other ∈ tokenList rules
  · obtain ⟨m, hm⟩ := List.getElem?_of_mem hother
    have hsame : m = n := by rw [← number_of_getElem? hm, h, hnumber]
    rw [hsame] at hm
    exact Option.some.inj (hm.symm.trans hn)
  · rw [number_of_not_mem hother, hnumber] at h
    exact absurd h.symm hzero

end Alphabet

end DaoGen.Syntax
