import DaoGen.Syntax.Lexeme
import DaoGen.Syntax.Token
set_option autoImplicit false

/-!
# Scanning

The next token of a text depends on the tokens that the grammar allows there.  Some
tokens are seen by what stands around them: the text of a template, a semicolon that is
left out, the question mark of a choice and comments that look like arrows.  They are
tried first.  Of all others the longest is taken.
-/

namespace DaoGen.Syntax

/-- A token with the blanks before it and the text after it. -/
structure Lexed where
  token : Token
  before : List Char
  text : List Char
  rest : List Char
  deriving Repr, Inhabited

/-! ## Gaps between tokens -/

/-- Blanks that tell where a semicolon may be left out. -/
def isSpace (c : Char) : Bool := c = ' ' || ('\t' ≤ c && c ≤ '\r')

/-- Characters that break a line inside of a comment. -/
def breaksLine (c : Char) : Bool := c = '\n' || c.toNat = 0x2028 || c.toNat = 0x2029

/-- What comments and blanks do to a place where a semicolon may be left out. -/
inductive Gap where
  /-- no semicolon is left out there -/
  | blocked
  /-- the line goes on -/
  | joined
  /-- the line has come to an end -/
  | parted
  deriving DecidableEq, Repr, Inhabited

/-- Skips the inside of a comment and its closing mark.  Also says whether the comment
was closed, and whether a line ended in it. -/
def skipComment (broken : Bool) : List Char → Bool × Bool × List Char
  | [] => (false, broken, [])
  | '*' :: '/' :: rest => (true, broken, rest)
  | c :: rest => skipComment (broken || breaksLine c) rest

/-- Skips blanks and comments.  Before the end of the line a comment that does not span
lines ends the gap.  Also says whether a comment was skipped, and what follows. -/
def skipGap (pastLine : Bool) : Nat → Bool → Bool → List Char → Gap × Bool × List Char
  | 0, _, seen, text => (.parted, seen, text)
  | bound + 1, broken, seen, text =>
    match text.dropWhile isSpace with
    | '/' :: '/' :: rest =>
      skipGap pastLine bound broken true (rest.dropWhile (!breaksLine ·))
    | '/' :: '*' :: rest =>
      let (closed, broken, after) := skipComment broken rest
      if !closed then (.parted, seen, after)
      else if after.head? ≠ some '/' && !pastLine then
        (if broken then .parted else .joined, true, after)
      else skipGap pastLine bound broken true after
    | '/' :: rest => (.blocked, seen, rest)
    | rest => (.parted, seen, rest)

/-! ## Semicolons that are left out -/

/-- Whether a word that continues an expression stands alone: `in` or `instanceof`. -/
def continues (text : List Char) : Bool :=
  let alone (rest : List Char) : Bool := !((rest.head?.map Char.isAlpha).getD false)
  match text with
  | 'i' :: 'n' :: rest =>
    alone rest || ("stanceof".toList.isPrefixOf rest && alone (rest.drop 8))
  | _ => false

/-- Whether a line that starts with a text is a new statement. -/
def startsStatement (valid : Token → Bool) (text : List Char) : Bool :=
  match text with
  | [] => true
  | c :: rest =>
    if ['\x60', ',', '.', ';', '*', '%', '>', '<', '=', '?', '^', '|', '&', '/', ':'].contains c then
      false
    else if c = '\x7b' then !valid .omittedAfterSignature
    else if c = '(' || c = '[' then !valid (.mark "||")
    else if c = '+' || c = '-' then rest.head? = some c
    else if c = '!' then rest.head? ≠ some '='
    else !continues text

/-- Whether a semicolon is left out before a closing brace.  In front of a colon the brace
closes a pattern, and it depends on whether the pattern belongs to an expression. -/
def omitsBeforeBrace (valid : Token → Bool) (rest : List Char) : Bool :=
  (rest.dropWhile isSpace).head? ≠ some ':' || valid (.mark "||")

/-- Whether a semicolon is left out after the end of a line, and whether a comment was
looked through to see it. -/
def omitsPastLine (valid : Token → Bool) (bound : Nat) (seen : Bool) (text : List Char) :
    Bool × Bool :=
  match skipGap true bound false seen text with
  | (.blocked, seen, _) => (false, seen)
  | (_, seen, rest) => (startsStatement valid rest, seen)

/-- Whether a semicolon is left out before a text, and whether a comment was looked through
to see it; `seen` says that this was so before. -/
def omitsSemicolon (valid : Token → Bool) : Nat → Bool → List Char → Bool × Bool
  | 0, seen, _ => (false, seen)
  | bound + 1, seen, text =>
    let (decided, seen, text) :=
      if text.head? = some '/' then
        match skipGap false bound false seen text with
        | (.blocked, seen, rest) => (some false, seen, rest)
        | (.joined, seen, rest) => (none, seen, rest)
        | (.parted, seen, rest) =>
          let goesOn := valid (.mark "||") || rest.head? = some ',' || rest.head? = some '='
          (if goesOn then none else some true, seen, rest)
      else (if text.isEmpty then some true else none, seen, text)
    match decided, text with
    | some answer, _ => (answer, seen)
    | none, [] => (false, seen)
    | none, c :: rest =>
      if c = '\x7d' then (omitsBeforeBrace valid rest, seen)
      else if breaksLine c then omitsPastLine valid bound seen rest
      else if isSpace c then omitsSemicolon valid bound seen rest
      else (false, seen)

/-! ## Tokens seen by what stands around them -/

/-- The question mark of a choice. -/
def scanChoice (text : List Char) : Option Lexed :=
  match cutWhile isSpace text with
  | (before, '?' :: rest) =>
    let lexed : Lexed := ⟨.choice, before, ['?'], rest⟩
    if rest.head? = some '?' then none
    else
      match rest.dropWhile isSpace with
      | '.' :: c :: _ => if c.isDigit then some lexed else none
      | '.' :: [] => none
      | c :: _ => if c = ':' || c = ')' || c = ',' then none else some lexed
      | [] => some lexed
  | _ => none

/-- A comment that starts with an arrow or with `<!--`. -/
def scanArrowComment (text : List Char) : Option Lexed :=
  let (before, comment) := cutWhile (fun c => isSpace c || breaksLine c) text
  (cutAny ["<!--", "-->"] comment).map fun cut =>
    let (inside, rest) := cutWhile (!breaksLine ·) cut.2
    ⟨.arrowComment, before, cut.1 ++ inside, rest⟩

/-- The token that a text starts with, if it is one that is seen by what stands around
it. -/
def scanAround (bound : Nat) (valid : Token → Bool) (text : List Char) : Option Lexed :=
  let nothing (t : Token) : Lexed := ⟨t, [], [], text⟩
  if valid .fragment then
    if valid .omitted then none
    else
      match cutFragment text with
      | some ([], _) => none
      | cut => cut.map fun (inside, rest) => ⟨.fragment, [], inside, rest⟩
  else if valid .omitted || valid .omittedAfterSignature then
    match omitsSemicolon valid bound false text with
    | (true, _) => some (nothing .omitted)
    | (false, seen) => if !seen && valid .choice then scanChoice text else none
  else if valid .choice then scanChoice text
  else if !valid (.mark "||") && !valid .escape && !valid .pattern then scanArrowComment text
  else none

/-! ## All other tokens -/

/-- A token that directly follows the one before it. -/
def scanAttached (valid : Token → Bool) (text : List Char) : Option Lexed :=
  let attached (t : Token) (cut : Option Cut) : Option Lexed :=
    if valid t then
      match cut with
      | some (c :: inside, rest) => some ⟨t, [], c :: inside, rest⟩
      | _ => none
    else none
  let letters := cutWhile (fun c => 'a' ≤ c && c ≤ 'z') text
  attached (.quoted .double) (cutQuoted '"' text) <|>
    attached (.quoted .single) (cutQuoted '\'' text) <|>
    attached .escape (cutEscape text) <|>
    attached .patternEnd (cutAny ["/"] text) <|>
    attached .pattern (cutPattern false text) <|>
    attached .flags (if cutName text = some letters then some letters else none)

/-- The longest mark that a text starts with. -/
def cutMark (valid : Token → Bool) (marks : List (String × List Char)) (text : List Char) :
    Option (Token × Cut) :=
  marks.foldl (fun best (mark, chars) =>
    match best with
    | some (_, cut) =>
      if cut.1.length < chars.length && chars.isPrefixOf text && valid (.mark mark) then
        some (.mark mark, (chars, text.drop chars.length))
      else best
    | none =>
      if chars.isPrefixOf text && valid (.mark mark) then
        some (.mark mark, (chars, text.drop chars.length))
      else none) none

/-- The longest token that a text without blanks in front starts with. -/
def cutToken (valid : Token → Bool) (marks : List (String × List Char)) (text : List Char) :
    Option (Token × Cut) :=
  match text with
  | [] => if valid .stop then some (.stop, ([], [])) else none
  | c :: rest =>
    if c = '/' && (cutComment text).isSome then (cutComment text).map fun cut => (.comment, cut)
    else if c = '#' then
      if rest.head? = some '!' && valid .interpreter then
        some (.interpreter, cutWhile (· ≠ '\n') text)
      else if valid .privateName then
        (cutName rest).map fun cut => (.privateName, cut.cons '#')
      else cutMark valid marks text
    else if c = '$' && rest.head? = some '\x7b' && valid (.mark "$\x7b") then
      cutMark valid marks text
    else
      match cutName text with
      | some cut =>
        let word := Token.word (String.ofList cut.1)
        some (if valid word then word else .name, cut)
      | none =>
        match if valid .number then cutNumber text else none with
        | some cut => some (.number, cut)
        | none => cutMark valid marks text

/-- The next token of a text, of those that are valid; blanks and comments between tokens
are not looked through for longer than a bound allows. -/
def scan (bound : Nat) (valid : Token → Bool) (marks : List (String × List Char)) (text : List Char) :
    Option Lexed :=
  scanAround bound valid text <|> scanAttached valid text <|>
    let (before, start) := cutWhile isBlank text
    (cutToken valid marks start).map fun (token, cut) => ⟨token, before, cut.1, cut.2⟩

end DaoGen.Syntax
