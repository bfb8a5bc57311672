import DaoGen.Syntax.Character
set_option autoImplicit false

/-!
# Lexemes

How far a token of some form reaches.  Each function here takes the text from some point
on and cuts it in two; what stands before the cut is the token.
-/

namespace DaoGen.Syntax

/-- A text cut in two. -/
abbrev Cut := List Char × List Char

/-- One more character before the cut. -/
def Cut.cons (c : Char) (cut : Cut) : Cut := (c :: cut.1, cut.2)

/-- More characters before the cut. -/
def Cut.append (text : List Char) (cut : Cut) : Cut := (text ++ cut.1, cut.2)

/-- A text cut in front of the first character that does not fit. -/
def cutWhile (fits : Char → Bool) (text : List Char) : Cut :=
  (text.takeWhile fits, text.dropWhile fits)

/-- A text cut after the first of some texts that it starts with. -/
def cutAny (starts : List String) (text : List Char) : Option Cut :=
  starts.findSome? fun s =>
    if s.toList.isPrefixOf text then some (s.toList, text.drop s.toList.length) else none

/-- The one of some cuts that is furthest in the text. -/
def furthest (cuts : List (Option Cut)) : Option Cut :=
  cuts.foldl (fun best cut =>
    match best, cut with
    | some b, some c => if b.1.length < c.1.length then cut else best
    | none, _ => cut
    | _, none => best) none

/-! ## Names -/

/-- Hexadecimal digits. -/
def isHexDigit (c : Char) : Bool := c.isDigit || ('a' ≤ c && c ≤ 'f') || ('A' ≤ c && c ≤ 'F')

/-- A character that is spelled by its number, from the `u` on. -/
def cutSpelled : List Char → Option Cut
  | 'u' :: '\x7b' :: rest =>
    match cutWhile isHexDigit rest with
    | ([], _) => none
    | (digits, '\x7d' :: more) => some ('u' :: '\x7b' :: digits ++ ['\x7d'], more)
    | _ => none
  | 'u' :: a :: b :: c :: d :: rest =>
    if [a, b, c, d].all isHexDigit then some (['u', a, b, c, d], rest) else none
  | _ => none

/-- The parts of a name that a text starts with.  A backslash starts a part that spells a
character; the given number of characters belong to such a part. -/
def cutNameParts (spelled : Nat) : List Char → Cut
  | [] => ([], [])
  | c :: rest =>
    if 0 < spelled then (cutNameParts (spelled - 1) rest).cons c
    else if isNamePart c then (cutNameParts 0 rest).cons c
    else
      match if c = '\\' then cutSpelled rest else none with
      | some (part, _) => (cutNameParts part.length rest).cons c
      | none => ([], c :: rest)

/-- The name that a text starts with. -/
def cutName (text : List Char) : Option Cut :=
  match cutNameParts 0 text with
  | ([], _) => none
  | (c :: name, rest) => if c.isDigit then none else some (c :: name, rest)

/-! ## Strings and templates -/

/-- An escape from its backslash on. -/
def cutEscape : List Char → Option Cut
  | '\\' :: rest =>
    let octal := (rest.takeWhile fun c => '0' ≤ c && c ≤ '7').take 3
    furthest [
      (cutSpelled rest).map (·.cons '\\'),
      match rest with
      | 'x' :: a :: b :: more =>
        if isHexDigit a && isHexDigit b then some (['\\', 'x', a, b], more) else none
      | _ => none,
      if octal.isEmpty then none else some ('\\' :: octal, rest.drop octal.length),
      match rest with
      | c :: d :: more =>
        if (c = '\r' || c = '?') && (d = '\n' || d.toNat = 0x2028 || d.toNat = 0x2029) then
          some (['\\', c, d], more)
        else none
      | _ => none,
      match rest with
      | c :: more =>
        if c = 'x' || c = 'u' || ('0' ≤ c && c ≤ '7') then none else some (['\\', c], more)
      | _ => none]
  | _ => none

/-- The text of a string up to its quote, an escape or the end of the line. -/
def cutQuoted (quote : Char) (text : List Char) : Option Cut :=
  match cutWhile (fun c => c ≠ quote && c ≠ '\\' && c ≠ '\r' && c ≠ '\n') text with
  | ([], _) => none
  | cut => some cut

/-- Text of a template up to what is no plain text: a backtick, a backslash, or a dollar
sign with an opening brace. -/
def cutFragment : List Char → Option Cut
  | [] => none
  | c :: rest =>
    if c = '\x60' || c = '\\' || (c = '$' && rest.head? = some '\x7b') then some ([], c :: rest)
    else (cutFragment rest).map (·.cons c)

/-! ## Regular expressions -/

/-- The inside of a regular expression up to its closing slash; a slash between brackets
does not close it. -/
def cutPattern (inBrackets : Bool) : List Char → Option Cut
  | [] => if inBrackets then none else some ([], [])
  | '\\' :: c :: rest =>
    if c = '\n' then none
    else (cutPattern inBrackets rest).map fun cut => (cut.cons c).cons '\\'
  | c :: rest =>
    if c = '\\' then none
    else if inBrackets then
      if c = '\n' then none else (cutPattern (c ≠ ']') rest).map (·.cons c)
    else if c = '\n' || c = '/' then some ([], c :: rest)
    else (cutPattern (c = '[') rest).map (·.cons c)

/-! ## Numbers -/

/-- Digits with single underscores between them. -/
def cutRun (isDigit : Char → Bool) : List Char → Cut
  | [] => ([], [])
  | '_' :: c :: rest =>
    if isDigit c then ((cutRun isDigit rest).cons c).cons '_' else ([], '_' :: c :: rest)
  | c :: rest => if isDigit c then (cutRun isDigit rest).cons c else ([], c :: rest)

/-- Digits with single underscores between them, at least one. -/
def cutDigits (isDigit : Char → Bool) : List Char → Option Cut
  | [] => none
  | c :: rest => if isDigit c then some ((cutRun isDigit rest).cons c) else none

/-- An optional part after a cut. -/
def Cut.thenMaybe (part : List Char → Option Cut) (cut : Cut) : Cut :=
  match part cut.2 with
  | some (text, rest) => (cut.1 ++ text, rest)
  | none => cut

/-- A part after a cut. -/
def Cut.andThen (part : List Char → Option Cut) (cut : Cut) : Option Cut :=
  (part cut.2).map fun (text, rest) => (cut.1 ++ text, rest)

/-- Digits in base ten. -/
def cutDecimal : List Char → Option Cut := cutDigits Char.isDigit

/-- Digits in another base, after the letter of the base. -/
def cutBase (starts : List String) (isDigit : Char → Bool) (text : List Char) : Option Cut :=
  (cutAny starts text).bind (Cut.andThen (cutDigits isDigit))

/-- The exponent of a number. -/
def cutExponent (text : List Char) : Option Cut :=
  (cutAny ["e+", "e-", "E+", "E-", "e", "E"] text).bind (Cut.andThen cutDecimal)

/-- Digits without a zero in front, or with a single one. -/
def cutWhole (text : List Char) : Option Cut :=
  match text with
  | '0' :: c :: rest =>
    if c ≠ '0' && c.isDigit then some (((cutRun Char.isDigit rest).cons c).cons '0')
    else some (['0'], c :: rest)
  | _ => cutDecimal text

/-- The number that a text starts with. -/
def cutNumber (text : List Char) : Option Cut :=
  let other :=
    [cutBase ["0x", "0X"] isHexDigit text,
      cutBase ["0b", "0B"] (fun c => c = '0' || c = '1') text,
      cutBase ["0o", "0O"] (fun c => '0' ≤ c && c ≤ '7') text,
      cutDecimal text]
  let whole := cutWhole text
  let point := Cut.andThen (cutAny ["."])
  furthest (other ++ other.map (·.bind (Cut.andThen (cutAny ["n"]))) ++
    [whole.bind (Cut.andThen cutExponent),
      (whole.bind point).map (Cut.thenMaybe cutExponent <| Cut.thenMaybe cutDecimal ·),
      ((point ([], text)).bind (Cut.andThen cutDecimal)).map (Cut.thenMaybe cutExponent)])

/-! ## Comments -/

/-- The inside of a comment up to and including the mark that closes it. -/
def cutClosed : List Char → Option Cut
  | [] => none
  | '*' :: '/' :: rest => some (['*', '/'], rest)
  | c :: rest => (cutClosed rest).map (·.cons c)

/-- A comment. -/
def cutComment : List Char → Option Cut
  | '/' :: '/' :: rest => some ((cutWhile (!endsLine ·) rest).append ['/', '/'])
  | '/' :: '*' :: rest => (cutClosed rest).map (·.append ['/', '*'])
  | _ => none

end DaoGen.Syntax
