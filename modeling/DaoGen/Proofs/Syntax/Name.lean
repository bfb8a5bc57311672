import Mathlib.Tactic.SplitIfs
import DaoGen.Proofs.Emit.Token
import DaoGen.Syntax.Scan
set_option autoImplicit false

/-!
# The text of names

Names are read where a text has characters that names are made of, or a backslash with the
number of one.  So no mark is part of a name: whatever a token was allowed to be, a name or
a word that was scanned is spelled by the characters of names alone (`isNameText_of_scan`).
-/

namespace DaoGen.Syntax

/-- The characters that a name is spelled with: those inside of names, and those around the
number of another one. -/
def isNameCharacter (c : Char) : Bool :=
  isNamePart c || c = '\\' || c = '\x7b' || c = '\x7d'

/-- A text that a name may have. -/
def IsNameText (text : List Char) : Prop := ∀ c ∈ text, isNameCharacter c

theorem IsNameText.not_mem_dot {text : List Char} (h : IsNameText text) : '.' ∉ text := by
  intro hdot
  exact absurd (h '.' hdot) (by decide)

theorem IsNameText.ne_star {text : List Char} (h : IsNameText text) : text ≠ ['*'] := by
  rintro rfl
  exact absurd (h '*' List.mem_cons_self) (by decide)

/-- The tokens that have the text of a name. -/
def Token.isNaming : Token → Bool
  | .name | .word _ => true
  | _ => false

/-! ## Names in a text -/

theorem isNamePart_of_isHexDigit {c : Char} (h : isHexDigit c) : isNamePart c := by
  have hrange : (48 ≤ c.toNat ∧ c.toNat ≤ 57) ∨ (97 ≤ c.toNat ∧ c.toNat ≤ 102) ∨
      (65 ≤ c.toNat ∧ c.toNat ≤ 70) := by
    simp only [isHexDigit, Char.isDigit, Bool.or_eq_true, Bool.and_eq_true, decide_eq_true_eq,
      ge_iff_le, UInt32.le_iff_toNat_le] at h
    rcases h with (hdigit | ⟨hlow, hhigh⟩) | ⟨hlow, hhigh⟩
    · exact .inl hdigit
    · exact .inr (.inl ⟨hlow, hhigh⟩)
    · exact .inr (.inr ⟨hlow, hhigh⟩)
  have hblank : isBlank c = false := by
    simp only [isBlank, Bool.or_eq_false_iff, Bool.and_eq_false_iff, decide_eq_false_iff_not]
    omega
  have hmeaning : reservedCharacters.all (!isHexDigit ·) = true := rfl
  have hfree : c ∉ reservedCharacters := by
    intro hmem
    have hno := List.all_eq_true.1 hmeaning c hmem
    simp [h] at hno
  simp [isNamePart, hblank, hfree]
  omega

theorem isNameCharacter_of_isHexDigit {c : Char} (h : isHexDigit c) : isNameCharacter c := by
  unfold isNameCharacter
  rw [isNamePart_of_isHexDigit h]
  rfl

/-- A spelled character has its number in hexadecimal digits. -/
theorem isNameText_of_cutSpelled {text part rest : List Char}
    (h : cutSpelled text = some (part, rest)) : IsNameText part := by
  unfold cutSpelled at h
  split at h
  · rename_i inner
    split at h
    · cases h
    · rename_i digits after _ hcut
      obtain ⟨rfl, -⟩ := Prod.mk.inj (Option.some.inj h)
      obtain ⟨-, hdigits, -⟩ := Emit.eq_of_cutWhile hcut
      intro c hc
      simp only [List.cons_append, List.mem_cons, List.mem_append, List.not_mem_nil,
        or_false] at hc
      rcases hc with rfl | rfl | hc | rfl
      · rfl
      · rfl
      · exact isNameCharacter_of_isHexDigit (hdigits c hc)
      · rfl
    · cases h
  · split at h
    · rename_i hdigits
      obtain ⟨rfl, -⟩ := Prod.mk.inj (Option.some.inj h)
      intro c hc
      rcases List.mem_cons.1 hc with rfl | hc
      · rfl
      · exact isNameCharacter_of_isHexDigit (List.all_eq_true.1 hdigits c hc)
    · cases h
  · cases h

/-- The parts of a name, when the part that is spelled already is the text of one. -/
theorem isNameText_cutNameParts (text : List Char) (spelled : Nat)
    (h : IsNameText (text.take spelled)) : IsNameText (cutNameParts spelled text).1 := by
  induction text generalizing spelled with
  | nil =>
    intro c hc
    cases hc
  | cons c rest ih =>
    have hcons : ∀ cut : Cut, isNameCharacter c → IsNameText cut.1 → IsNameText (cut.cons c).1 := by
      intro cut hc hcut d hd
      rcases List.mem_cons.1 hd with rfl | hd
      · exact hc
      · exact hcut d hd
    unfold cutNameParts
    split
    · rename_i hspelled
      obtain ⟨n, rfl⟩ := Nat.exists_eq_succ_of_ne_zero (Nat.ne_of_gt hspelled)
      rw [List.take_succ_cons] at h
      refine hcons _ (h c List.mem_cons_self) (ih n ?_)
      exact fun d hd => h d (List.mem_cons_of_mem _ hd)
    · split
      · rename_i hpart
        refine hcons _ ?_ (ih 0 fun d hd => by cases hd)
        unfold isNameCharacter
        rw [hpart]
        rfl
      · split
        · rename_i part _ hcut
          split at hcut
          · rename_i hbackslash
            refine hcons _ (by rw [hbackslash]; rfl) (ih _ ?_)
            obtain ⟨hrest, -⟩ := Emit.cutSpelled_append hcut
            rw [hrest, List.take_left]
            exact isNameText_of_cutSpelled hcut
          · cases hcut
        · intro d hd
          cases hd

theorem isNameText_of_cutName {text : List Char} {cut : Cut} (h : cutName text = some cut) :
    IsNameText cut.1 := by
  have hparts := isNameText_cutNameParts text 0 fun c hc => by cases hc
  unfold cutName at h
  split at h
  · cases h
  · rename_i hcut
    rw [hcut] at hparts
    split at h
    · cases h
    · obtain rfl := Option.some.inj h
      exact hparts

/-! ## Names among tokens -/

section Scanning

variable {bound : Nat} {valid : Token → Bool} {marks : List (String × List Char)}
  {text : List Char} {lexed : Lexed}

theorem isNaming_of_scanChoice (h : scanChoice text = some lexed) :
    lexed.token.isNaming = false := by
  unfold scanChoice at h
  split at h
  · dsimp only at h
    split_ifs at h
    split at h
    · split_ifs at h
      obtain rfl := Option.some.inj h
      rfl
    · cases h
    · split_ifs at h
      obtain rfl := Option.some.inj h
      rfl
    · obtain rfl := Option.some.inj h
      rfl
  · cases h

/-- No token that is seen by what stands around it is a name. -/
theorem isNaming_of_scanAround (h : scanAround bound valid text = some lexed) :
    lexed.token.isNaming = false := by
  unfold scanAround at h
  dsimp only at h
  split_ifs at h
  · split at h
    · cases h
    · obtain ⟨cut, -, rfl⟩ := Option.map_eq_some_iff.1 h
      rfl
  · split at h
    · obtain rfl := Option.some.inj h
      rfl
    · split_ifs at h
      exact isNaming_of_scanChoice h
  · exact isNaming_of_scanChoice h
  · unfold scanArrowComment at h
    obtain ⟨cut, -, rfl⟩ := Option.map_eq_some_iff.1 h
    rfl

/-- No token that directly follows another one is a name. -/
theorem isNaming_of_scanAttached (h : scanAttached valid text = some lexed) :
    lexed.token.isNaming = false := by
  unfold scanAttached at h
  simp only [Option.orElse_eq_orElse, Option.orElse_eq_or, Option.or_eq_some_iff] at h
  rcases h with h | ⟨-, h | ⟨-, h | ⟨-, h | ⟨-, h | ⟨-, h⟩⟩⟩⟩⟩
  all_goals
    repeat' split at h
    all_goals cases h
    all_goals rfl

/-- No mark is a name. -/
theorem isNaming_of_cutMark {token : Token} {cut : Cut}
    (h : cutMark valid marks text = some (token, cut)) : token.isNaming = false := by
  have hfound : ∀ found, cutMark valid marks text = some found → found.1.isNaming = false := by
    unfold cutMark
    refine List.foldlRecOn marks _
      (motive := fun best : Option (Token × Cut) =>
        ∀ found, best = some found → found.1.isNaming = false) ?_ ?_
    · intro found hnone
      cases hnone
    intro best hbest mark _ found hfound
    dsimp only at hfound
    split at hfound
    · split_ifs at hfound
      · obtain rfl := Option.some.inj hfound
        rfl
      · exact hbest found hfound
    · split_ifs at hfound
      obtain rfl := Option.some.inj hfound
      rfl
  exact hfound _ h

/-- Of the tokens that are told by their own text, only the names have the text of one. -/
theorem isNameText_of_cutToken {token : Token} {cut : Cut}
    (h : cutToken valid marks text = some (token, cut)) (hnaming : token.isNaming) :
    IsNameText cut.1 := by
  have hmark : ∀ text, cutMark valid marks text ≠ some (token, cut) := by
    intro text hcut
    rw [isNaming_of_cutMark hcut] at hnaming
    cases hnaming
  unfold cutToken at h
  split at h
  · split_ifs at h
    obtain ⟨rfl, -⟩ := Prod.mk.inj (Option.some.inj h)
    cases hnaming
  · split at h
    · obtain ⟨_, -, heq⟩ := Option.map_eq_some_iff.1 h
      obtain ⟨rfl, -⟩ := Prod.mk.inj heq
      cases hnaming
    · split at h
      · split_ifs at h
        · obtain ⟨rfl, -⟩ := Prod.mk.inj (Option.some.inj h)
          cases hnaming
        · obtain ⟨_, -, heq⟩ := Option.map_eq_some_iff.1 h
          obtain ⟨rfl, -⟩ := Prod.mk.inj heq
          cases hnaming
        · exact absurd h (hmark _)
      · split at h
        · exact absurd h (hmark _)
        · split at h
          · rename_i name hname
            obtain ⟨-, rfl⟩ := Prod.mk.inj (Option.some.inj h)
            exact isNameText_of_cutName hname
          · split at h
            · obtain ⟨rfl, -⟩ := Prod.mk.inj (Option.some.inj h)
              cases hnaming
            · exact absurd h (hmark _)

/-- A name or a word that was scanned has the text of a name. -/
theorem isNameText_of_scan (h : scan bound valid marks text = some lexed)
    (hnaming : lexed.token.isNaming) : IsNameText lexed.text := by
  unfold scan at h
  simp only [Option.orElse_eq_orElse, Option.orElse_eq_or, Option.or_eq_some_iff] at h
  rcases h with h | ⟨-, h | ⟨-, h⟩⟩
  · rw [isNaming_of_scanAround h] at hnaming
    cases hnaming
  · rw [isNaming_of_scanAttached h] at hnaming
    cases hnaming
  · obtain ⟨⟨token, cut⟩, hcut, rfl⟩ := Option.map_eq_some_iff.1 h
    exact isNameText_of_cutToken hcut hnaming

end Scanning

end DaoGen.Syntax
