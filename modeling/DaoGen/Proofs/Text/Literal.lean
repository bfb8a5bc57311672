import DaoGen.Number.Literal
import DaoGen.Source.Values
import DaoGen.Text.Quoted
import Mathlib.Tactic.SplitIfs
set_option autoImplicit false

/-!
# Values of string literals

The value of a string literal is a sequence of UTF-16 code units.  It is read off the characters of
the literal one by one: most stand for themselves, a backslash begins an escape, and the quote that
the literal began with ends it.  A template differs in that it may hold line ends, all of which
stand for a line feed, and may not hold a substitution here.  Octal escapes have no value, as in
modules.

The written form of a text has the units of the text as its value (`value?_quoteChars`).  What
stands between the quotes of a literal has the literal's value as its units exactly when it is
taken as it stands (`value?_eq_units_unquoted_iff`).
-/

namespace DaoGen.Text

/-! ## Code units -/

/-- The code units of a code point: one, or a pair of surrogates. -/
def encode (point : Nat) : List Nat :=
  if point < 0x10000 then [point]
  else [0xD800 + (point - 0x10000) / 0x400, 0xDC00 + (point - 0x10000) % 0x400]

/-- The code units of a text. -/
def units (cs : List Char) : List Nat := cs.flatMap fun c => encode c.toNat

@[simp] theorem units_nil : units [] = [] := rfl

@[simp] theorem units_cons (c : Char) (cs : List Char) :
    units (c :: cs) = encode c.toNat ++ units cs := rfl

@[simp] theorem units_append (a b : List Char) : units (a ++ b) = units a ++ units b :=
  List.flatMap_append

theorem length_encode_pos (point : Nat) : 0 < (encode point).length := by
  unfold encode
  split <;> simp

theorem length_encode_le (point : Nat) : (encode point).length ≤ 2 := by
  unfold encode
  split <;> simp

/-- A code point that has a unit for itself is its only code point with that unit. -/
theorem mem_encode {unit point : Nat} (hunit : unit < 0xD800) (h : unit ∈ encode point) :
    unit = point := by
  unfold encode at h
  split at h
  · simpa using h
  · simp only [List.mem_cons, List.not_mem_nil, or_false] at h
    omega

/-! ## Reading a literal -/

namespace Literal

/-- Where reading a literal has come to. -/
inductive State where
  /-- between two characters -/
  | plain
  /-- after a backslash -/
  | escaped
  /-- in front of a digit of an escape, with so many digits after it -/
  | digits (more value : Nat)
  /-- after `\u` -/
  | point
  /-- in a code point between braces, which has a value once it has a digit -/
  | braced (value : Option Nat)
  /-- after `\0` -/
  | zero
  /-- after a carriage return that a line feed may belong to -/
  | carriage
  /-- after a dollar sign in a template -/
  | dollar
  /-- after the last quote -/
  | closed
  deriving DecidableEq, Repr

/-- The characters that may enclose a literal. -/
def quotes : List Char := ['"', '\'', '\x60']

/-- Reads a character that no escape holds. -/
def stepPlain (quote c : Char) : Option (State × List Nat) :=
  if c = quote then some (.closed, [])
  else if c = '\\' then some (.escaped, [])
  else if quote = '\x60' then
    if c = '\r' then some (.carriage, encode '\n'.toNat)
    else if c = '$' then some (.dollar, encode c.toNat)
    else some (.plain, encode c.toNat)
  else if c = '\n' ∨ c = '\r' then none
  else some (.plain, encode c.toNat)

/-- Reads the character after a backslash. -/
def stepEscaped (c : Char) : Option (State × List Nat) :=
  match c with
  | 'b' => some (.plain, [0x08])
  | 't' => some (.plain, [0x09])
  | 'n' => some (.plain, [0x0A])
  | 'v' => some (.plain, [0x0B])
  | 'f' => some (.plain, [0x0C])
  | 'r' => some (.plain, [0x0D])
  | '0' => some (.zero, [0x00])
  | 'x' => some (.digits 1 0, [])
  | 'u' => some (.point, [])
  | '\r' => some (.carriage, [])
  | '\n' | '\u2028' | '\u2029' => some (.plain, [])
  | c => if c.isDigit then none else some (.plain, encode c.toNat)

/-- Reads one character and gives the code units that are settled by it. -/
def step (quote : Char) : State → Char → Option (State × List Nat)
  | .plain, c => stepPlain quote c
  | .escaped, c => stepEscaped c
  | .digits more value, c =>
    (Number.hexDigit? c).map fun digit =>
      match more with
      | 0 => (.plain, [16 * value + digit])
      | more + 1 => (.digits more (16 * value + digit), [])
  | .point, c =>
    if c = '\x7b' then some (.braced none, [])
    else (Number.hexDigit? c).map fun digit => (.digits 2 digit, [])
  | .braced value, c =>
    if c = '\x7d' then
      value.bind fun point => if point ≤ 0x10FFFF then some (.plain, encode point) else none
    else (Number.hexDigit? c).map fun digit => (.braced (some (16 * value.getD 0 + digit)), [])
  | .zero, c => if c.isDigit then none else stepPlain quote c
  | .carriage, c => if c = '\n' then some (.plain, []) else stepPlain quote c
  | .dollar, c => if c = '\x7b' then none else stepPlain quote c
  | .closed, _ => none

/-- Reads the rest of a literal, which ends with its quote. -/
def run (quote : Char) (s : State) : List Char → Option (List Nat)
  | [] => if s = .closed then some [] else none
  | c :: rest =>
    match step quote s c with
    | none => none
    | some (after, settled) => (run quote after rest).map (settled ++ ·)

/-- The value of a literal; a text that is none has no value. -/
def value? : List Char → Option (List Nat)
  | [] => none
  | quote :: rest => if quotes.contains quote then run quote .plain rest else none

/-- A literal is taken as it stands: nothing in it is escaped, and no line of it, if it is a
template, ends with a carriage return. -/
def IsVerbatim (text : List Char) : Prop := '\\' ∉ text ∧ '\r' ∉ text

instance (text : List Char) : Decidable (IsVerbatim text) :=
  inferInstanceAs (Decidable (_ ∧ _))

/-! ## Steps -/

section

variable {quote c : Char} {s after : State} {settled : List Nat}

/-- What reading a character that no escape holds can do. -/
theorem stepPlain_cases (h : stepPlain quote c = some (after, settled)) :
    (c = quote ∧ after = .closed ∧ settled = []) ∨
      (c = '\\' ∧ after = .escaped ∧ settled = []) ∨
      (quote = '\x60' ∧ c = '\r' ∧ after = .carriage ∧ settled = [0x0A]) ∨
      (c ≠ '\\' ∧ c ≠ '\r' ∧ (after = .plain ∨ after = .dollar) ∧ settled = encode c.toNat) := by
  unfold stepPlain at h
  split at h
  · cases h
    exact .inl ⟨‹_›, rfl, rfl⟩
  · split at h
    · cases h
      exact .inr (.inl ⟨‹_›, rfl, rfl⟩)
    · rename_i hescape
      split at h
      · split at h
        · cases h
          exact .inr (.inr (.inl ⟨‹_›, ‹_›, rfl, rfl⟩))
        · rename_i hreturn
          split at h
          · cases h
            exact .inr (.inr (.inr ⟨hescape, hreturn, .inr rfl, rfl⟩))
          · cases h
            exact .inr (.inr (.inr ⟨hescape, hreturn, .inl rfl, rfl⟩))
      · split at h
        · cases h
        · rename_i hline
          cases h
          exact .inr (.inr (.inr ⟨hescape, fun hreturn => hline (.inr hreturn), .inl rfl, rfl⟩))

/-- Reading has come to the end of a character. -/
def IsBetween (s : State) : Prop := s = .plain ∨ s = .carriage ∨ s = .dollar

/-- Between two characters the next one is read, unless it belongs to a carriage return. -/
theorem IsBetween.step_cases (hs : IsBetween s) (h : step quote s c = some (after, settled)) :
    (s = .carriage ∧ c = '\n' ∧ after = .plain ∧ settled = []) ∨
      stepPlain quote c = some (after, settled) := by
  rcases hs with rfl | rfl | rfl
  · exact .inr h
  · rw [step] at h
    split at h
    · cases h
      exact .inl ⟨rfl, ‹_›, rfl, rfl⟩
    · exact .inr h
  · rw [step] at h
    split at h
    · cases h
    · exact .inr h

/-- What a state owes for characters that settled nothing. -/
def slack : State → Nat
  | .closed => 1
  | .braced (some _) => 1
  | _ => 0

theorem length_stepPlain (h : stepPlain quote c = some (after, settled)) :
    settled.length + slack after ≤ (encode c.toNat).length := by
  have hpos := length_encode_pos c.toNat
  rcases stepPlain_cases h with ⟨-, rfl, rfl⟩ | ⟨-, rfl, rfl⟩ | ⟨-, -, rfl, rfl⟩ |
    ⟨-, -, rfl | rfl, rfl⟩
  all_goals simp only [slack, List.length_nil, List.length_singleton]; omega

theorem stepEscaped_spec (h : stepEscaped c = some (after, settled)) :
    after ≠ .closed ∧ settled.length + slack after ≤ (encode c.toNat).length := by
  have hpos := length_encode_pos c.toNat
  unfold stepEscaped at h
  split at h
  case h_14 =>
    split at h
    · cases h
    · cases h
      exact ⟨by simp, Nat.le_refl _⟩
  all_goals
    cases h
    simp only [slack, List.length_nil, List.length_singleton]
    exact ⟨by simp, by omega⟩

/-- What a step can do: it reads a character that no escape holds, or it does not end the literal
and settles no more units than it reads. -/
theorem step_cases (h : step quote s c = some (after, settled)) :
    stepPlain quote c = some (after, settled) ∨
      (after ≠ .closed ∧ settled.length + slack after ≤ (encode c.toNat).length + slack s) := by
  have hpos := length_encode_pos c.toNat
  cases s with
  | plain => exact .inl h
  | escaped => exact .inr (stepEscaped_spec h)
  | digits more value =>
    obtain ⟨digit, -, hdigit⟩ := Option.map_eq_some_iff.1 h
    cases more with
    | zero =>
      cases hdigit
      exact .inr ⟨by simp, hpos⟩
    | succ more =>
      cases hdigit
      exact .inr ⟨by simp, Nat.zero_le _⟩
  | point =>
    rw [step] at h
    split at h
    · cases h
      exact .inr ⟨by simp, Nat.zero_le _⟩
    · obtain ⟨digit, -, hdigit⟩ := Option.map_eq_some_iff.1 h
      cases hdigit
      exact .inr ⟨by simp, Nat.zero_le _⟩
  | braced value =>
    rw [step] at h
    split at h
    · obtain ⟨point, rfl, hpoint⟩ := Option.bind_eq_some_iff.1 h
      split at hpoint
      · cases hpoint
        have hle := length_encode_le point
        refine .inr ⟨by simp, ?_⟩
        simp only [slack]
        omega
      · cases hpoint
    · obtain ⟨digit, -, hdigit⟩ := Option.map_eq_some_iff.1 h
      cases hdigit
      refine .inr ⟨by simp, ?_⟩
      simp only [slack, List.length_nil]
      omega
  | zero =>
    rw [step] at h
    split at h
    · cases h
    · exact .inl h
  | carriage =>
    rcases IsBetween.step_cases (.inr (.inl rfl)) h with ⟨-, -, rfl, rfl⟩ | h
    · exact .inr ⟨by simp, Nat.zero_le _⟩
    · exact .inl h
  | dollar =>
    rcases IsBetween.step_cases (.inr (.inr rfl)) h with ⟨-, -, rfl, rfl⟩ | h
    · exact .inr ⟨by simp, Nat.zero_le _⟩
    · exact .inl h
  | closed => cases h

theorem length_step (h : step quote s c = some (after, settled)) :
    settled.length + slack after ≤ (encode c.toNat).length + slack s := by
  rcases step_cases h with hplain | ⟨-, hle⟩
  · exact Nat.le_add_right_of_le (length_stepPlain hplain)
  · exact hle

theorem eq_quote_of_step (h : step quote s c = some (.closed, settled)) : c = quote := by
  rcases step_cases h with hplain | ⟨hne, -⟩
  · rcases stepPlain_cases hplain with ⟨hc, -⟩ | ⟨-, hs, -⟩ | ⟨-, -, hs, -⟩ | ⟨-, -, hs | hs, -⟩
    · exact hc
    all_goals cases hs
  · exact absurd rfl hne

end

/-! ## Runs -/

section

variable {quote : Char} {s : State} {v : List Nat}

theorem run_cons {c : Char} {cs : List Char} (h : run quote s (c :: cs) = some v) :
    ∃ after settled w, step quote s c = some (after, settled) ∧ run quote after cs = some w ∧
      v = settled ++ w := by
  rw [run] at h
  cases hstep : step quote s c with
  | none =>
    rw [hstep] at h
    cases h
  | some x =>
    obtain ⟨after, settled⟩ := x
    rw [hstep] at h
    obtain ⟨w, hw, rfl⟩ := Option.map_eq_some_iff.1 h
    exact ⟨after, settled, w, rfl, hw, rfl⟩

/-- Nothing follows the last quote. -/
theorem run_closed {cs : List Char} (h : run quote .closed cs = some v) : cs = [] ∧ v = [] := by
  cases cs with
  | nil =>
    cases h
    exact ⟨rfl, rfl⟩
  | cons c cs =>
    obtain ⟨_, _, _, hstep, -, -⟩ := run_cons h
    cases hstep

/-- The quote at the end of a literal settles nothing, so there is more to read than to settle. -/
theorem length_run {cs : List Char} (h : run quote s cs = some v) :
    v.length + 1 ≤ (units cs).length + slack s := by
  induction cs generalizing s v with
  | nil =>
    rw [run] at h
    split at h
    · rename_i hclosed
      cases h
      rw [hclosed]
      exact Nat.le_refl _
    · cases h
  | cons c cs ih =>
    obtain ⟨after, settled, w, hstep, hw, rfl⟩ := run_cons h
    have hsettled := length_step hstep
    have hrest := ih hw
    rw [units_cons, List.length_append, List.length_append]
    omega

/-- A literal ends with its quote. -/
theorem exists_body_of_run {cs : List Char} (hs : s ≠ .closed) (h : run quote s cs = some v) :
    ∃ body, cs = body ++ [quote] := by
  induction cs generalizing s v with
  | nil =>
    rw [run, if_neg hs] at h
    cases h
  | cons c cs ih =>
    obtain ⟨after, settled, w, hstep, hw, -⟩ := run_cons h
    by_cases hafter : after = .closed
    · subst hafter
      rw [(run_closed hw).1, eq_quote_of_step hstep]
      exact ⟨[], rfl⟩
    · obtain ⟨body, rfl⟩ := ih hafter hw
      exact ⟨c :: body, rfl⟩

end

/-! ## Written texts -/

theorem run_escape (c : Char) (rest : List Char) :
    run '"' .plain (escape c ++ rest) = (run '"' .plain rest).map (encode c.toNat ++ ·) := by
  unfold escape
  split_ifs with hquote hbackslash hline hreturn htab
  · subst hquote
    simp [run, step, stepPlain, stepEscaped, Function.comp_def]
  · subst hbackslash
    simp [run, step, stepPlain, stepEscaped, Function.comp_def]
  · subst hline
    simp [run, step, stepPlain, stepEscaped, encode, Function.comp_def]
  · subst hreturn
    simp [run, step, stepPlain, stepEscaped, encode, Function.comp_def]
  · subst htab
    simp [run, step, stepPlain, stepEscaped, encode, Function.comp_def]
  · simp [run, step, stepPlain, *]

/-- The written form of a text has the units of the text as its value. -/
theorem value?_quoteChars (cs : List Char) : value? (quoteChars cs) = some (units cs) := by
  have hrun : run '"' .plain (escapeAll cs ++ ['"']) = some (units cs) := by
    induction cs with
    | nil => rfl
    | cons c cs ih => rw [escapeAll_cons, List.append_assoc, run_escape, ih]; rfl
  exact hrun

/-! ## Literals taken as they stand -/

section

variable {quote : Char} {s : State} {body : List Char} {v : List Nat}

theorem isBetween_of_plain (h : s = .plain ∨ s = .dollar) : IsBetween s :=
  h.imp_right .inr

/-- The quote that ends a literal is not read before. -/
theorem not_run_closed_append : run quote .closed (body ++ [quote]) ≠ some v := by
  intro h
  have hnil := (run_closed h).1
  simp at hnil

/-- Reading the end of a literal settles nothing. -/
theorem IsBetween.run_quote (hs : IsBetween s) (h : run quote s [quote] = some v) : v = [] := by
  obtain ⟨after, settled, w, hstep, hw, rfl⟩ := run_cons h
  have hclosed : after = .closed := by
    rw [run] at hw
    split at hw
    · assumption
    · cases hw
  subst hclosed
  rw [(run_closed hw).2]
  rcases hs.step_cases hstep with ⟨-, -, hplain, -⟩ | hplain
  · cases hplain
  · rcases stepPlain_cases hplain with ⟨-, -, rfl⟩ | ⟨-, hs, -⟩ | ⟨-, -, hs, -⟩ | ⟨-, -, hs | hs, -⟩
    · rfl
    all_goals cases hs

/-- What is taken as it stands has the units of its characters as its value. -/
theorem run_verbatim (hs : s = .plain ∨ s = .dollar) (hbody : IsVerbatim body)
    (h : run quote s (body ++ [quote]) = some v) : v = units body := by
  induction body generalizing s v with
  | nil => exact (isBetween_of_plain hs).run_quote h
  | cons c body ih =>
    obtain ⟨after, settled, w, hstep, hw, rfl⟩ := run_cons h
    rcases (isBetween_of_plain hs).step_cases hstep with ⟨rfl, -⟩ | hplain
    · rcases hs with hs | hs <;> cases hs
    rcases stepPlain_cases hplain with ⟨-, rfl, -⟩ | ⟨rfl, -⟩ | ⟨-, rfl, -⟩ |
      ⟨-, -, hafter, rfl⟩
    · exact absurd hw not_run_closed_append
    · exact absurd List.mem_cons_self hbody.1
    · exact absurd List.mem_cons_self hbody.2
    · have hrest : IsVerbatim body :=
        ⟨fun hmem => hbody.1 (List.mem_cons_of_mem c hmem),
          fun hmem => hbody.2 (List.mem_cons_of_mem c hmem)⟩
      rw [ih hafter hrest hw, units_cons]

/-- What holds an escape has fewer units as its value than as its characters. -/
theorem length_lt_of_escape (hquote : (encode quote.toNat).length = 1) (hs : IsBetween s)
    (hescape : '\\' ∈ body) (h : run quote s (body ++ [quote]) = some v) :
    v.length < (units body).length := by
  induction body generalizing s v with
  | nil => cases hescape
  | cons c body ih =>
    obtain ⟨after, settled, w, hstep, hw, rfl⟩ := run_cons h
    have hpos := length_encode_pos c.toNat
    rw [units_cons, List.length_append, List.length_append]
    -- a step that stays between two characters leaves the escape for later
    have hlater : c ≠ '\\' → IsBetween after → settled.length ≤ (encode c.toNat).length →
        settled.length + w.length < (encode c.toNat).length + (units body).length := by
      intro hc hafter hsettled
      have hmem : '\\' ∈ body := (List.mem_cons.1 hescape).resolve_left (Ne.symm hc)
      have hrest := ih hafter hmem hw
      omega
    rcases hs.step_cases hstep with ⟨-, rfl, rfl, rfl⟩ | hplain
    · exact hlater (by decide) (.inl rfl) (Nat.zero_le _)
    rcases stepPlain_cases hplain with ⟨-, rfl, -⟩ | ⟨rfl, rfl, rfl⟩ | ⟨-, rfl, rfl, rfl⟩ |
      ⟨hc, -, hafter, rfl⟩
    · exact absurd hw not_run_closed_append
    · have hrest : w.length + 1 ≤ (units (body ++ [quote])).length + slack .escaped :=
        length_run hw
      have hend : (units [quote]).length = 1 := by rwa [units_cons, units_nil, List.append_nil]
      rw [units_append, List.length_append, hend] at hrest
      simp only [slack, List.length_nil] at hrest ⊢
      omega
    · exact hlater (by decide) (.inr (.inl rfl)) hpos
    · exact hlater hc (isBetween_of_plain hafter) (Nat.le_refl _)

/-- Without an escape there is no carriage return in a value. -/
theorem return_not_mem_of_run (hs : IsBetween s) (hescape : '\\' ∉ body)
    (h : run quote s (body ++ [quote]) = some v) : '\r'.toNat ∉ v := by
  induction body generalizing s v with
  | nil =>
    rw [hs.run_quote h]
    exact List.not_mem_nil
  | cons c body ih =>
    obtain ⟨after, settled, w, hstep, hw, rfl⟩ := run_cons h
    have hlater : IsBetween after → '\r'.toNat ∉ settled → '\r'.toNat ∉ settled ++ w := by
      intro hafter hsettled hmem
      rcases List.mem_append.1 hmem with hmem | hmem
      · exact hsettled hmem
      · exact ih hafter (fun hmem => hescape (List.mem_cons_of_mem c hmem)) hw hmem
    rcases hs.step_cases hstep with ⟨-, -, rfl, rfl⟩ | hplain
    · exact hlater (.inl rfl) List.not_mem_nil
    rcases stepPlain_cases hplain with ⟨-, rfl, -⟩ | ⟨rfl, -⟩ | ⟨-, -, rfl, rfl⟩ |
      ⟨-, hc, hafter, rfl⟩
    · exact absurd hw not_run_closed_append
    · exact absurd List.mem_cons_self hescape
    · exact hlater (.inr (.inl rfl)) (by decide)
    · refine hlater (isBetween_of_plain hafter) fun hmem => hc ?_
      exact (Char.toNat_inj.1 (mem_encode (by decide) hmem)).symm

end

theorem exists_body_of_value? {text : List Char} {v : List Nat} (h : value? text = some v) :
    ∃ quote ∈ quotes, ∃ body, text = quote :: (body ++ [quote]) ∧
      run quote .plain (body ++ [quote]) = some v := by
  cases text with
  | nil => cases h
  | cons quote rest =>
    rw [value?] at h
    split at h
    · rename_i hquote
      obtain ⟨body, rfl⟩ := exists_body_of_run (by simp) h
      exact ⟨quote, List.contains_iff_mem.1 hquote, body, rfl, h⟩
    · cases h

theorem mem_quotes_iff {quote : Char} :
    quote ∈ quotes ↔ quote = '"' ∨ quote = '\'' ∨ quote = '\x60' := by
  simp [quotes]

theorem unquoted_of_mem_quotes {quote : Char} (hquote : quote ∈ quotes) (body : List Char) :
    Source.unquoted (quote :: (body ++ [quote])) = body := by
  rcases mem_quotes_iff.1 hquote with rfl | rfl | rfl <;> simp [Source.unquoted]

/-- What stands between the quotes of a literal has its value as units exactly when the literal is
taken as it stands. -/
theorem value?_eq_units_unquoted_iff {text : List Char} {v : List Nat}
    (h : value? text = some v) : v = units (Source.unquoted text) ↔ IsVerbatim text := by
  obtain ⟨quote, hquote, body, rfl, hrun⟩ := exists_body_of_value? h
  have hother : quote ≠ '\\' ∧ quote ≠ '\r' ∧ (encode quote.toNat).length = 1 := by
    rcases mem_quotes_iff.1 hquote with rfl | rfl | rfl <;> decide
  have hverbatim : IsVerbatim (quote :: (body ++ [quote])) ↔ IsVerbatim body := by
    simp [IsVerbatim, hother.1.symm, hother.2.1.symm]
  rw [unquoted_of_mem_quotes hquote, hverbatim]
  constructor
  · rintro rfl
    have hescape : '\\' ∉ body := fun hmem =>
      Nat.lt_irrefl _ (length_lt_of_escape hother.2.2 (.inl rfl) hmem hrun)
    refine ⟨hescape, fun hreturn => return_not_mem_of_run (.inl rfl) hescape hrun ?_⟩
    exact List.mem_flatMap.2 ⟨'\r', hreturn, by decide⟩
  · exact fun hbody => run_verbatim (.inl rfl) hbody hrun

end Literal

end DaoGen.Text
