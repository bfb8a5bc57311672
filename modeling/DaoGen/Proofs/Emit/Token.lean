import DaoGen.Number.Literal
import DaoGen.Syntax.Lexeme
set_option autoImplicit false

/-!
# Tokens of generated code

The text of generated code is cut into names, whole numbers and marks.  A name ends in
front of the first character that no name goes on with, so the tokens of a text that is
put together from pieces are those of the pieces one after the other, as long as a name
or a number is followed by a character that ends it.
-/

namespace DaoGen.Emit

open DaoGen.Syntax

/-- A token of generated code. -/
inductive Token where
  /-- a name or a reserved word -/
  | name (text : String)
  /-- a whole number in base ten -/
  | number (value : Nat)
  /-- the mark `==` -/
  | equal
  /-- the mark `<=` -/
  | atMost
  /-- any other character that is a mark of its own -/
  | mark (c : Char)
  /-- a longer mark that generated code does not use -/
  | other (text : String)
  deriving DecidableEq, Repr, Inhabited

/-- A text that is one name. -/
def IsName (name : String) : Prop := cutName name.toList = some (name.toList, [])

instance (name : String) : Decidable (IsName name) := inferInstanceAs (Decidable (_ = _))

/-- Characters that end a name in front of them. -/
def endsName (c : Char) : Bool := !isNamePart c && c ≠ '\\'

/-- Characters that end a number in front of them. -/
def endsNumber (c : Char) : Bool := endsName c && c ≠ '.'

/-- The whole number that a text starts with, and the number of its digits.  A number
has no zeros in front, and what follows it does not go on with it. -/
def firstNumber (text : List Char) : Option (Nat × Nat) :=
  let digits := text.takeWhile Char.isDigit
  let ends := (text.dropWhile Char.isDigit).head?.all endsNumber
  if digits = [] || (digits.head? = some '0' && digits ≠ ['0']) || !ends then none
  else some (Number.decimalValue digits, digits.length)

/-- The mark that a text starts with, and the number of its characters. -/
def firstMark : List Char → Token × Nat
  | '=' :: '=' :: '=' :: _ => (.other "===", 3)
  | '=' :: '=' :: _ => (.equal, 2)
  | '=' :: '>' :: _ => (.other "=>", 2)
  | '<' :: '=' :: _ => (.atMost, 2)
  | '<' :: '<' :: _ => (.other "<<", 2)
  | c :: _ => (.mark c, 1)
  | [] => (.other "", 0)

/-- The token that a text starts with, and the number of its characters. -/
def firstToken (text : List Char) : Token × Nat :=
  match cutName text with
  | some (name, _) => (.name (String.ofList name), name.length)
  | none =>
    match firstNumber text with
    | some (value, length) => (.number value, length)
    | none => firstMark text

/-- The tokens of a text whose first characters belong to a token already read. -/
def tokensAfter (read : Nat) : List Char → List Token
  | [] => []
  | c :: rest =>
    if 0 < read then tokensAfter (read - 1) rest
    else if isBlank c then tokensAfter 0 rest
    else
      let (token, length) := firstToken (c :: rest)
      token :: tokensAfter (length - 1) rest

/-- The tokens of a text. -/
def tokens (text : List Char) : List Token := tokensAfter 0 text

theorem tokensAfter_append (text rest : List Char) :
    tokensAfter text.length (text ++ rest) = tokens rest := by
  induction text with
  | nil => rfl
  | cons c text ih =>
    rw [List.cons_append, List.length_cons, tokensAfter, if_pos (Nat.succ_pos _)]
    exact ih

/-- A text that starts with a token and then goes on. -/
theorem tokens_of_firstToken {text rest : List Char} {token : Token}
    (hblank : ∀ c, text.head? = some c → isBlank c = false) (hne : text ≠ [])
    (h : firstToken (text ++ rest) = (token, text.length)) :
    tokens (text ++ rest) = token :: tokens rest := by
  cases text with
  | nil => exact absurd rfl hne
  | cons c text =>
    have hc : isBlank c = false := hblank c rfl
    rw [List.cons_append] at h ⊢
    rw [tokens, tokensAfter, h]
    simp only [Nat.lt_irrefl, if_false, hc, Bool.false_eq_true, List.length_cons,
      Nat.add_sub_cancel]
    rw [tokensAfter_append]

/-! ## Names -/

theorem cutWhile_of_all {fits : Char → Bool} {found : List Char} {c : Char}
    (hall : ∀ x ∈ found, fits x = true) (hc : fits c = false) (more : List Char) :
    cutWhile fits (found ++ c :: more) = (found, c :: more) := by
  simp [cutWhile, List.takeWhile_append_of_pos hall, List.dropWhile_append_of_pos hall, hc]

theorem eq_of_cutWhile {fits : Char → Bool} {text found more : List Char} {c : Char}
    (h : cutWhile fits text = (found, c :: more)) :
    text = found ++ c :: more ∧ (∀ x ∈ found, fits x = true) ∧ fits c = false := by
  simp only [cutWhile, Prod.mk.injEq] at h
  obtain ⟨hfound, hdrop⟩ := h
  have hsplit := List.takeWhile_append_dropWhile (p := fits) (l := text)
  have hall := List.all_takeWhile (p := fits) (l := text)
  have hc := List.head?_dropWhile_not fits text
  rw [hfound] at hsplit hall
  rw [hdrop] at hsplit hc
  exact ⟨hsplit.symm, List.all_eq_true.1 hall, by simpa using hc⟩

/-- A spelled character is a part of the text and does not depend on what follows. -/
theorem cutSpelled_append {text part more : List Char} (h : cutSpelled text = some (part, more)) :
    text = part ++ more ∧ ∀ rest, cutSpelled (text ++ rest) = some (part, more ++ rest) := by
  unfold cutSpelled at h
  split at h
  · rename_i inner
    split at h
    · cases h
    · rename_i digits after hne hcut
      simp only [Option.some.injEq, Prod.mk.injEq] at h
      obtain ⟨rfl, rfl⟩ := h
      obtain ⟨rfl, hall, hc⟩ := eq_of_cutWhile hcut
      refine ⟨by simp, fun rest => ?_⟩
      have happ := cutWhile_of_all hall hc (after ++ rest)
      cases digits with
      | nil => exact absurd rfl hne
      | cons d digits =>
        unfold cutSpelled
        simp only [List.cons_append, List.append_assoc] at happ ⊢
        rw [happ]
        rfl
    · cases h
  · split at h
    · rename_i a b c d after hbrace hall
      simp only [Option.some.injEq, Prod.mk.injEq] at h
      obtain ⟨rfl, rfl⟩ := h
      refine ⟨rfl, fun rest => ?_⟩
      simp only [List.cons_append]
      rw [cutSpelled, if_pos hall]
      exact hbrace
    · cases h
  · cases h

/-- The parts of a name do not depend on what follows a character that ends it. -/
theorem cutNameParts_append {text : List Char} {c : Char} (hc : endsName c = true)
    (rest : List Char) : ∀ spelled, spelled ≤ text.length → cutNameParts spelled text = (text, []) →
      cutNameParts spelled (text ++ c :: rest) = (text, c :: rest) := by
  simp only [endsName, Bool.and_eq_true, Bool.not_eq_true', decide_eq_true_eq] at hc
  induction text with
  | nil =>
    intro spelled hle _
    have hzero : spelled = 0 := Nat.le_zero.1 hle
    simp [cutNameParts, hzero, hc]
  | cons d text ih =>
    intro spelled hle h
    rw [List.cons_append]
    rw [cutNameParts] at h ⊢
    by_cases hspelled : 0 < spelled
    · rw [if_pos hspelled] at h ⊢
      simp only [Cut.cons, Prod.mk.injEq, List.cons.injEq, true_and] at h ⊢
      have hrest := ih (spelled - 1) (by simp at hle; omega) (Prod.ext h.1 h.2)
      simp [hrest]
    · rw [if_neg hspelled] at h ⊢
      split at h
      · rename_i hpart
        rw [if_pos hpart]
        simp only [Cut.cons, Prod.mk.injEq, List.cons.injEq, true_and] at h ⊢
        have hrest := ih 0 (Nat.zero_le _) (Prod.ext h.1 h.2)
        simp [hrest]
      · rename_i hpart
        rw [if_neg hpart]
        split at h
        · rename_i part more hcut
          split at hcut
          · rename_i hd
            obtain ⟨hsplit, happ⟩ := cutSpelled_append hcut
            have hle : part.length ≤ text.length := by simp [hsplit]
            simp only [Cut.cons, Prod.mk.injEq, List.cons.injEq, true_and] at h
            have hrest := ih part.length hle (Prod.ext h.1 h.2)
            simp [hd, happ, hrest, Cut.cons]
          · cases hcut
        · simp at h

theorem cutName_append {name : List Char} {c : Char} (hc : endsName c = true)
    (h : cutName name = some (name, [])) (rest : List Char) :
    cutName (name ++ c :: rest) = some (name, c :: rest) := by
  unfold cutName at h
  split at h
  · cases h
  · rename_i d text after hparts
    split at h
    · cases h
    · rename_i hd
      simp only [Option.some.injEq, Prod.mk.injEq] at h
      obtain ⟨rfl, rfl⟩ := h
      have happ := cutNameParts_append hc rest 0 (Nat.zero_le _) hparts
      rw [cutName, happ]
      simp [hd]

/-- A name has a first character, and that one is not blank. -/
theorem head_of_cutName {name : List Char} (h : cutName name = some (name, [])) :
    name ≠ [] ∧ ∀ c, name.head? = some c → isBlank c = false := by
  cases name with
  | nil => simp [cutName, cutNameParts] at h
  | cons c rest =>
    refine ⟨List.cons_ne_nil _ _, fun d hd => ?_⟩
    obtain rfl : c = d := by simpa using hd
    cases hblank : isBlank c with
    | false => rfl
    | true =>
      have hpart : isNamePart c = false := by simp [isNamePart, hblank]
      have hslash : c ≠ '\\' := by
        rintro rfl
        exact absurd hblank (by decide)
      simp [cutName, cutNameParts, hpart, hslash] at h

/-- A name is one token in front of a character that ends it. -/
theorem tokens_name {name : String} (h : IsName name) {c : Char} (hc : endsName c = true)
    (rest : List Char) :
    tokens (name.toList ++ c :: rest) = .name name :: tokens (c :: rest) := by
  obtain ⟨hne, hblank⟩ := head_of_cutName h
  refine tokens_of_firstToken hblank hne ?_
  simp [firstToken, cutName_append hc h rest]

/-! ## Numbers -/

theorem decimalValue_toDigits (n : Nat) : Number.decimalValue (Nat.toDigits 10 n) = n :=
  Nat.ofDigitChars_toDigits (by decide) (by decide)

/-- The digits of a number start with a zero only for the number zero. -/
theorem head_toDigits (n : Nat) (h : (Nat.toDigits 10 n).head? = some '0') :
    Nat.toDigits 10 n = ['0'] := by
  induction n using Nat.strongRecOn with
  | ind n ih =>
    by_cases hn : n < 10
    · rw [Nat.toDigits_of_lt_base hn] at h ⊢
      simpa using h
    · have hle : 10 ≤ n := Nat.not_lt.1 hn
      rw [Nat.toDigits_of_base_le (by decide) hle] at h
      have hne : Nat.toDigits 10 (n / 10) ≠ [] := Nat.toDigits_ne_nil
      rw [List.head?_append, Option.or_of_isSome (by simp [hne])] at h
      have hzero := ih (n / 10) (Nat.div_lt_self (by omega) (by decide)) h
      have hvalue := decimalValue_toDigits (n / 10)
      rw [hzero] at hvalue
      have : Number.decimalValue ['0'] = 0 := rfl
      omega

theorem isNamePart_of_isDigit {c : Char} (h : c.isDigit = true) : isNamePart c = true := by
  have hrange : 48 ≤ c.toNat ∧ c.toNat ≤ 57 := by
    simp only [Char.isDigit, Bool.and_eq_true, decide_eq_true_eq, ge_iff_le,
      UInt32.le_iff_toNat_le] at h
    exact h
  have hblank : isBlank c = false := by
    simp only [isBlank, Bool.or_eq_false_iff, Bool.and_eq_false_iff, decide_eq_false_iff_not]
    omega
  have hmeaning : reservedCharacters.all (!·.isDigit) = true := rfl
  have hfree : c ∉ reservedCharacters := by
    intro hmem
    have hno := List.all_eq_true.1 hmeaning c hmem
    simp [h] at hno
  simp [isNamePart, hblank, hfree]
  omega

/-- No name starts with a digit. -/
theorem cutName_of_isDigit {d : Char} (h : d.isDigit = true) (rest : List Char) :
    cutName (d :: rest) = none := by
  simp [cutName, cutNameParts, isNamePart_of_isDigit h, Cut.cons, h]

theorem firstNumber_toDigits (n : Nat) {c : Char} (hc : endsNumber c = true) (rest : List Char) :
    firstNumber (Nat.toDigits 10 n ++ c :: rest) = some (n, (Nat.toDigits 10 n).length) := by
  have hall : ∀ d ∈ Nat.toDigits 10 n, d.isDigit = true :=
    fun d hd => Nat.isDigit_of_mem_toDigits (by decide) (by decide) hd
  have hdigit : c.isDigit = false := by
    cases hd : c.isDigit with
    | false => rfl
    | true => simp [endsNumber, endsName, isNamePart_of_isDigit hd] at hc
  have htake : (Nat.toDigits 10 n ++ c :: rest).takeWhile Char.isDigit = Nat.toDigits 10 n := by
    simp [List.takeWhile_append_of_pos hall, hdigit]
  have hdrop : (Nat.toDigits 10 n ++ c :: rest).dropWhile Char.isDigit = c :: rest := by
    simp [List.dropWhile_append_of_pos hall, hdigit]
  have hzero := head_toDigits n
  simp only [firstNumber, htake, hdrop, decimalValue_toDigits, List.head?_cons, Option.all_some, hc]
  simpa using hzero

/-- A number is one token in front of a character that ends it. -/
theorem tokens_number (n : Nat) {c : Char} (hc : endsNumber c = true) (rest : List Char) :
    tokens ((toString n).toList ++ c :: rest) = .number n :: tokens (c :: rest) := by
  rw [show (toString n).toList = Nat.toDigits 10 n from Nat.toList_repr]
  cases hdigits : Nat.toDigits 10 n with
  | nil => exact absurd hdigits Nat.toDigits_ne_nil
  | cons d digits =>
    have hd : d.isDigit = true :=
      Nat.isDigit_of_mem_toDigits (b := 10) (n := n) (by decide) (by decide) (by simp [hdigits])
    have hnumber := firstNumber_toDigits n hc rest
    rw [hdigits] at hnumber
    refine tokens_of_firstToken ?_ (List.cons_ne_nil _ _) ?_
    · intro x hx
      obtain rfl : d = x := by simpa using hx
      have hpart := isNamePart_of_isDigit hd
      simp only [isNamePart, Bool.and_eq_true, Bool.not_eq_true'] at hpart
      exact hpart.1.2
    · rw [firstToken, List.cons_append, cutName_of_isDigit hd, ← List.cons_append, hnumber]

end DaoGen.Emit
