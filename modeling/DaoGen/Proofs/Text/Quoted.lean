import DaoGen.Proofs.Text.Literal
set_option autoImplicit false

/-!
# Written texts among other text

A literal at the front of a text is read up to the quote that ends it, and what follows is left
(`Literal.scan?`).  Its value is a sequence of code units, which stands for a text unless a
surrogate in it lacks its partner (`decode`).

Whatever text is written, the written form is such a literal: it stands for that text, and nothing
behind it is read with it (`quote_reads_back`).
-/

namespace DaoGen.Text

/-! ## Texts of code units -/

/-- Surrogates that begin a pair. -/
def isHigh (unit : Nat) : Bool := 0xD800 ≤ unit && unit < 0xDC00

/-- Surrogates that end a pair. -/
def isLow (unit : Nat) : Bool := 0xDC00 ≤ unit && unit < 0xE000

/-- The character of a pair of surrogates. -/
def ofPair (high low : Nat) : Char :=
  Char.ofNat (0x10000 + (high - 0xD800) * 0x400 + (low - 0xDC00))

/-- The text with the given code units, if there is one. -/
def decode : List Nat → Option (List Char)
  | [] => some []
  | unit :: rest =>
    if isHigh unit then
      match rest with
      | [] => none
      | low :: rest => if isLow low then (decode rest).map (ofPair unit low :: ·) else none
    else if isLow unit || 0x10000 ≤ unit then none
    else (decode rest).map (Char.ofNat unit :: ·)

theorem decode_encode_append (c : Char) (rest : List Nat) :
    decode (encode c.toNat ++ rest) = (decode rest).map (c :: ·) := by
  have hvalid : c.toNat < 0xD800 ∨ (0xDFFF < c.toNat ∧ c.toNat < 0x110000) := c.valid
  unfold encode
  split
  · have hhigh : isHigh c.toNat = false := by
      simp only [isHigh, Bool.and_eq_false_iff, decide_eq_false_iff_not]
      omega
    have hlow : (isLow c.toNat || decide (0x10000 ≤ c.toNat)) = false := by
      simp only [isLow, Bool.or_eq_false_iff, Bool.and_eq_false_iff, decide_eq_false_iff_not]
      omega
    rw [List.singleton_append, decode.eq_def]
    simp only [hhigh, hlow, Char.ofNat_toNat, Bool.false_eq_true, if_false]
  · have hhigh : isHigh (0xD800 + (c.toNat - 0x10000) / 0x400) = true := by
      simp only [isHigh, Bool.and_eq_true, decide_eq_true_eq]
      omega
    have hlow : isLow (0xDC00 + (c.toNat - 0x10000) % 0x400) = true := by
      simp only [isLow, Bool.and_eq_true, decide_eq_true_eq]
      omega
    have hpair : ofPair (0xD800 + (c.toNat - 0x10000) / 0x400)
        (0xDC00 + (c.toNat - 0x10000) % 0x400) = c := by
      have hpoint : 0x10000 + (0xD800 + (c.toNat - 0x10000) / 0x400 - 0xD800) * 0x400 +
          (0xDC00 + (c.toNat - 0x10000) % 0x400 - 0xDC00) = c.toNat := by omega
      rw [ofPair, hpoint, Char.ofNat_toNat]
    rw [List.cons_append, List.singleton_append, decode.eq_def]
    simp only [hhigh, hlow, hpair, if_true]

/-- No text is lost in its code units. -/
theorem decode_units (cs : List Char) : decode (units cs) = some cs := by
  induction cs with
  | nil => rfl
  | cons c cs ih => rw [units_cons, decode_encode_append, ih, Option.map_some]

namespace Literal

/-! ## Literals at the front of a text -/

/-- Reads the rest of a literal and leaves what follows it. -/
def scanFrom (quote : Char) : State → List Char → Option (List Nat × List Char)
  | .closed, rest => some ([], rest)
  | _, [] => none
  | s, c :: rest =>
    match step quote s c with
    | none => none
    | some (after, settled) =>
      (scanFrom quote after rest).map fun (value, left) => (settled ++ value, left)

/-- The value of the literal that a text starts with, and what follows it. -/
def scan? : List Char → Option (List Nat × List Char)
  | [] => none
  | quote :: rest => if quotes.contains quote then scanFrom quote .plain rest else none

/-- The text that the literal at the front of a text stands for, and what follows it. -/
def text? (text : List Char) : Option (String × List Char) :=
  (scan? text).bind fun (value, left) =>
    (decode value).map fun cs => (String.ofList cs, left)

/-- A literal that is read to its end is read in the same way in front of any text. -/
theorem scanFrom_append_of_run {quote : Char} {s : State} {cs : List Char} {v : List Nat}
    (h : run quote s cs = some v) (rest : List Char) :
    scanFrom quote s (cs ++ rest) = some (v, rest) := by
  induction cs generalizing s v with
  | nil =>
    rw [run] at h
    split at h
    · rename_i hclosed
      cases h
      rw [hclosed, List.nil_append, scanFrom]
    · cases h
  | cons c cs ih =>
    obtain ⟨after, settled, w, hstep, hw, rfl⟩ := run_cons h
    have hopen : s ≠ .closed := by
      rintro rfl
      cases hstep
    rw [List.cons_append, scanFrom, hstep]
    · dsimp only
      rw [ih hw, Option.map_some]
    · exact hopen

theorem scan?_append {text : List Char} {v : List Nat} (h : value? text = some v)
    (rest : List Char) : scan? (text ++ rest) = some (v, rest) := by
  cases text with
  | nil => cases h
  | cons quote body =>
    rw [value?] at h
    split at h
    · rename_i hquote
      rw [List.cons_append, scan?, if_pos hquote]
      exact scanFrom_append_of_run h rest
    · cases h

/-! ## What stands unescaped -/

/-- The characters of a text that no backslash escapes; a backslash at the end escapes nothing. -/
def unescaped : List Char → Option (List Char)
  | [] => some []
  | ['\\'] => none
  | '\\' :: _ :: rest => unescaped rest
  | c :: rest => (unescaped rest).map (c :: ·)

/-- A character is written with a backslash in front of one more, or as itself. -/
theorem escape_cases (c : Char) :
    (∃ d, escape c = ['\\', d]) ∨
      escape c = [c] ∧ c ≠ '"' ∧ c ≠ '\\' ∧ c ≠ '\n' ∧ c ≠ '\r' := by
  unfold escape
  split_ifs with hquote hbackslash hline hreturn
  · exact .inl ⟨_, rfl⟩
  · exact .inl ⟨_, rfl⟩
  · exact .inl ⟨_, rfl⟩
  · exact .inl ⟨_, rfl⟩
  · exact .inl ⟨_, rfl⟩
  · exact .inr ⟨rfl, hquote, hbackslash, hline, hreturn⟩

/-- Between the quotes of a written text no quote and no end of a line stands unescaped, and the
last quote is not escaped either. -/
theorem exists_unescaped_escapeAll (cs : List Char) :
    ∃ plain, unescaped (escapeAll cs) = some plain ∧
      ∀ c ∈ plain, c ≠ '"' ∧ c ≠ '\n' ∧ c ≠ '\r' := by
  induction cs with
  | nil => exact ⟨[], rfl, fun _ h => nomatch h⟩
  | cons c cs ih =>
    obtain ⟨plain, hplain, hall⟩ := ih
    rw [escapeAll_cons]
    rcases escape_cases c with ⟨d, hescape⟩ | ⟨hescape, hquote, hbackslash, hline, hreturn⟩
    · rw [hescape, List.cons_append, List.singleton_append]
      exact ⟨plain, hplain, hall⟩
    · rw [hescape, List.singleton_append]
      refine ⟨c :: plain, ?_, ?_⟩
      · rw [unescaped, hplain, Option.map_some]
        · rintro rfl
          exact absurd rfl hbackslash
        · rintro _ _ rfl
          exact absurd rfl hbackslash
      · intro d hd
        rcases List.mem_cons.1 hd with rfl | hd
        · exact ⟨hquote, hline, hreturn⟩
        · exact hall d hd

/-! ## Written texts -/

theorem text?_quote_append (s : String) (rest : List Char) :
    text? ((quote s).toList ++ rest) = some (s, rest) := by
  rw [text?, toList_quote, scan?_append (value?_quoteChars s.toList), Option.bind_some]
  dsimp only
  rw [decode_units, Option.map_some, String.ofList_toList]

end Literal

open Literal

/-- The written form of a text is one literal: between its quotes no quote and no end of a line
stands unescaped, and no backslash is left over.  Whatever follows, the literal is read with the
code units of the text as its value and stands for the text itself; so two texts in front of
others are written alike only if they and what follows them are the same. -/
theorem quote_reads_back (s : String) :
    (∃ body plain, (quote s).toList = '"' :: (body ++ ['"']) ∧ unescaped body = some plain ∧
      ∀ c ∈ plain, c ≠ '"' ∧ c ≠ '\n' ∧ c ≠ '\r') ∧
    (∀ rest, scan? ((quote s).toList ++ rest) = some (units s.toList, rest) ∧
      text? ((quote s).toList ++ rest) = some (s, rest)) ∧
    (∀ t, quote s = quote t ↔ s = t) ∧
    ∀ t rest more, (quote s).toList ++ rest = (quote t).toList ++ more ↔ s = t ∧ rest = more := by
  have happ : ∀ t rest more,
      (quote s).toList ++ rest = (quote t).toList ++ more ↔ s = t ∧ rest = more := by
    intro t rest more
    constructor
    · intro heq
      have hread := text?_quote_append s rest
      rw [heq, text?_quote_append t more] at hread
      obtain ⟨rfl, rfl⟩ := Prod.mk.inj (Option.some.inj hread)
      exact ⟨rfl, rfl⟩
    · rintro ⟨rfl, rfl⟩
      rfl
  obtain ⟨plain, hplain, hall⟩ := exists_unescaped_escapeAll s.toList
  refine ⟨⟨escapeAll s.toList, plain, toList_quote s, hplain, hall⟩, fun rest => ⟨?_, ?_⟩,
    fun t => ?_, happ⟩
  · rw [toList_quote]
    exact scan?_append (value?_quoteChars s.toList) rest
  · exact text?_quote_append s rest
  · constructor
    · intro heq
      exact ((happ t [] []).1 (by rw [heq])).1
    · rintro rfl
      rfl

/-- A backslash in front of a quote, an end of a line and a character of two code units. -/
example :
    quote "a\\\"\n😀" = "\"a\\\\\\\"\\n😀\"" ∧
      text? "\"a\\\\\\\"\\n😀\";".toList = some ("a\\\"\n😀", [';']) := by
  decide +kernel

end DaoGen.Text
