import DaoGen.Toml.Value
set_option autoImplicit false

/-!
# Scanning a document

A scanner takes characters off the front of a document, or refuses them.  This module
has the scanners for blanks, comments, keys and the values that hold no others.
-/

namespace DaoGen.Toml

/-- What is left of a document, and how many characters stand before it. -/
structure Input where
  rest : List Char
  index : Nat
  deriving Inhabited

/-- Something that can be scanned. -/
abbrev Scan (α : Type) : Type := StateT Input Option α

namespace Scan

variable {α : Type}

/-! ## Characters -/

/-- A character that passes a test. -/
def one (test : Char → Bool) : Scan Char := fun i =>
  match i.rest with
  | c :: rest => if test c then some (c, ⟨rest, i.index + 1⟩) else none
  | [] => none

/-- A certain character. -/
def char (c : Char) : Scan Unit := discard (one (· = c))

/-- A certain text. -/
def text (s : String) : Scan Unit := s.toList.forM char

/-- The next character, which stays. -/
def peek : Scan (Option Char) := fun i => some (i.rest.head?, i)

/-- Whether a certain text comes next; it stays. -/
def sees (s : String) : Scan Bool := fun i => some (s.toList.isPrefixOf i.rest, i)

/-- Something, at most the given number of times. -/
def upTo : Nat → Scan α → Scan (List α)
  | 0, _ => pure []
  | bound + 1, p =>
    (do
      let first ← p
      let more ← upTo bound p
      return first :: more) <|> pure []

/-- Something as often as there are characters left. -/
def many (p : Scan α) : Scan (List α) := fun i => upTo i.rest.length p i

/-- Something at least once. -/
def many1 (p : Scan α) : Scan (List α) := do
  let first ← p
  let more ← many p
  return first :: more

/-- Something with a separator between. -/
def separated (separator : Scan Unit) (p : Scan α) : Scan (List α) := do
  let first ← p
  let more ← many (separator *> p)
  return first :: more

/-- Something with the stretch it takes. -/
def ranged (p : Scan α) : Scan (Range × α) := do
  let start ← get
  let value ← p
  let stop ← get
  return (⟨start.index, stop.index⟩, value)

/-- Something with the characters it takes. -/
def spelled (p : Scan Unit) : Scan (List Char) := do
  let start ← get
  p
  let stop ← get
  return start.rest.take (stop.index - start.index)

/-! ## Blanks and comments -/

/-- Blanks within a line. -/
def blanks : Scan Unit := discard (many (one fun c => c = ' ' || c = '\t'))

/-- The end of a line. -/
def newline : Scan Unit := char '\n' <|> (char '\r' *> char '\n')

/-- A character that may stand in a comment or a literal string. -/
def isPrintable (c : Char) : Bool := c = '\t' || (0x20 ≤ c.toNat && c.toNat ≠ 0x7F)

/-- A comment. -/
def comment : Scan Unit := char '#' *> discard (many (one isPrintable))

/-- The end of the document. -/
def finish : Scan Unit := fun i => if i.rest.isEmpty then some ((), i) else none

/-- What may follow something on its line, and the end of the line. -/
def lineEnd : Scan Unit := do
  blanks
  discard (optional comment)
  newline <|> finish

/-- Blanks, comments and ends of lines. -/
def gaps : Scan Unit := do
  blanks
  discard (many ((newline <|> comment *> newline) *> blanks))

/-! ## Strings -/

/-- The value of a hexadecimal digit. -/
def hexValue (c : Char) : Option Nat :=
  if c.isDigit then some (c.toNat - '0'.toNat)
  else if 'a' ≤ c && c ≤ 'f' then some (c.toNat - 'a'.toNat + 10)
  else if 'A' ≤ c && c ≤ 'F' then some (c.toNat - 'A'.toNat + 10)
  else none

/-- A hexadecimal digit. -/
def hexDigit : Scan Nat := do
  let c ← one fun c => (hexValue c).isSome
  return (hexValue c).getD 0

/-- A character by its number in `n` hexadecimal digits. -/
def codePoint (n : Nat) : Scan Char := do
  let digits ← (List.replicate n ()).mapM fun _ => hexDigit
  let code := digits.foldl (fun value d => 16 * value + d) 0
  if code.isValidChar then return Char.ofNat code else failure

/-- What a backslash and the characters after it stand for. -/
def escape : Scan Char := do
  char '\\'
  let c ← one fun _ => true
  match c with
  | 'b' => return '\x08'
  | 't' => return '\t'
  | 'n' => return '\n'
  | 'f' => return '\x0c'
  | 'r' => return '\r'
  | '"' => return '"'
  | '\\' => return '\\'
  | 'u' => codePoint 4
  | 'U' => codePoint 8
  | _ => failure

/-- A string on one line in double quotes. -/
def basicString : Scan String := do
  char '"'
  let cs ← many ((one fun c => isPrintable c && c ≠ '"' && c ≠ '\\') <|> escape)
  char '"'
  return String.ofList cs

/-- A string on one line in single quotes. -/
def literalString : Scan String := do
  char '\''
  let cs ← many (one fun c => isPrintable c && c ≠ '\'')
  char '\''
  return String.ofList cs

/-- Fewer than three quotes that do not close a string. -/
def innerQuotes (quote : Char) : Scan (List Char) := do
  let quotes ← spelled (discard (many1 (char quote)))
  if quotes.length < 3 then return quotes else failure

/-- The quotes that close a string over several lines, with up to two of its own
before them. -/
def closingQuotes (quote : Char) : Scan (List Char) := do
  let quotes ← spelled (discard (many1 (char quote)))
  if 3 ≤ quotes.length && quotes.length ≤ 5 then return quotes.drop 3 else failure

/-- The end of a line inside of a string. -/
def innerNewline : Scan (List Char) := newline *> pure ['\n']

/-- A backslash at the end of a line takes the blanks after it away. -/
def joinedLines : Scan (List Char) := do
  char '\\'
  blanks
  newline
  discard (many (newline <|> discard (one fun c => c = ' ' || c = '\t')))
  return []

/-- A string over several lines. -/
def longString (quote : Char) (piece : Scan (List Char)) : Scan String := do
  text (String.ofList [quote, quote, quote])
  discard (optional newline)
  let pieces ← many (piece <|> innerNewline <|> innerQuotes quote)
  let own ← closingQuotes quote
  return String.ofList (pieces.flatten ++ own)

/-- A string over several lines in double quotes. -/
def longBasicString : Scan String :=
  longString '"'
    ((do return [← one fun c => isPrintable c && c ≠ '"' && c ≠ '\\']) <|>
      joinedLines <|> (do return [← escape]))

/-- A string over several lines in single quotes. -/
def longLiteralString : Scan String :=
  longString '\'' (do return [← one fun c => isPrintable c && c ≠ '\''])

/-- A string of any kind. -/
def string : Scan String :=
  longBasicString <|> basicString <|> longLiteralString <|> literalString

/-! ## Keys -/

/-- A character of a key without quotes. -/
def isKeyChar (c : Char) : Bool := c.isAlphanum || c = '_' || c = '-'

/-- A key without dots. -/
def simpleKey : Scan Key := do
  let (range, name) ← ranged (basicString <|> literalString <|>
    (do return String.ofList (← many1 (one isKeyChar))))
  return ⟨name, range⟩

/-- Keys have fewer parts than this, and values are nested less deeply. -/
def levelLimit : Nat := 80

/-- A key, dotted or not. -/
def key : Scan (List Key) := do
  let keys ← separated (char '.') (blanks *> simpleKey <* blanks)
  if keys.length < levelLimit then return keys else failure

/-! ## Numbers -/

/-- Digits that pass a test, with single underscores between them. -/
def digits (test : Char → Bool) : Scan Unit := do
  discard (one test)
  discard (many (discard (one test) <|> (char '_' *> discard (one test))))

/-- The sign of a number. -/
def sign : Scan Unit := discard (optional (one fun c => c = '+' || c = '-'))

/-- A whole number in base ten: no zero stands in front of other digits. -/
def wholeDecimal : Scan Unit := do
  sign
  if (← peek) = some '0' then char '0' else digits Char.isDigit

/-- The characters of a number without underscores. -/
def plainDigits (cs : List Char) : List Char := cs.filter (· ≠ '_')

/-- The value of digits in a base. -/
def valueIn (base : Nat) (cs : List Char) : Nat :=
  (plainDigits cs).foldl (fun value c => base * value + (hexValue c).getD 0) 0

/-- Integers are signed and have 64 bits. -/
def checkInteger (value : Int) : Scan Int :=
  if -(Nat.pow 2 63 : Int) ≤ value ∧ value < Nat.pow 2 63 then pure value else failure

/-- An integer in base ten. -/
def decimalInteger : Scan Int := do
  let cs ← spelled wholeDecimal
  let magnitude : Int := valueIn 10 (cs.filter Char.isDigit)
  checkInteger (if cs.head? = some '-' then -magnitude else magnitude)

/-- An integer after the letter of another base. -/
def basedInteger (letter : String) (base : Nat) : Scan Int := do
  text letter
  let cs ← spelled (digits fun c => match hexValue c with | some d => d < base | none => false)
  checkInteger (valueIn base cs)

/-- An integer. -/
def integer : Scan Int :=
  basedInteger "0x" 16 <|> basedInteger "0o" 8 <|> basedInteger "0b" 2 <|> decimalInteger

/-- The exponent of a number. -/
def exponent : Scan Int := do
  discard (one fun c => c = 'e' || c = 'E')
  let cs ← spelled (sign *> digits Char.isDigit)
  let magnitude : Int := valueIn 10 (cs.filter Char.isDigit)
  return if cs.head? = some '-' then -magnitude else magnitude

/-- The digits of a fraction. -/
def fraction : Scan (List Char) := do
  char '.'
  let cs ← spelled (digits Char.isDigit)
  return plainDigits cs

/-- A number with a fraction or an exponent; none is too large. -/
def finiteFloat : Scan Float := do
  let whole ← spelled wholeDecimal
  let digitsAfter ← optional fraction
  let power ← match digitsAfter with
    | some _ => optional exponent
    | none => some <$> exponent
  let after := digitsAfter.getD []
  let magnitude := Binary64.ofDecimal (valueIn 10 (whole.filter Char.isDigit ++ after))
    (power.getD 0 - after.length)
  let negative := whole.head? = some '-'
  if magnitude = .infinite && !negative then failure
  else return .number negative magnitude

/-- Infinity or no number at all. -/
def specialFloat : Scan Float := do
  let mark ← optional (one fun c => c = '+' || c = '-')
  (text "inf" *> pure (.number (mark = some '-') .infinite)) <|> (text "nan" *> pure .nan)

/-- A floating point number. -/
def float : Scan Float := finiteFloat <|> specialFloat

/-! ## Dates and times -/

/-- A number of exactly `n` digits in a range. -/
def fixed (n low high : Nat) : Scan Nat := do
  let cs ← (List.replicate n ()).mapM fun _ => one Char.isDigit
  let value := valueIn 10 cs
  if low ≤ value && value ≤ high then return value else failure

/-- The days of a month. -/
def daysIn (year month : Nat) : Nat :=
  if month = 2 then
    if (year % 4 = 0 && year % 100 ≠ 0) || year % 400 = 0 then 29 else 28
  else if [4, 6, 9, 11].contains month then 30
  else 31

/-- A date. -/
def date : Scan Unit := do
  let year ← fixed 4 0 9999
  char '-'
  let month ← fixed 2 1 12
  char '-'
  discard (fixed 2 1 (daysIn year month))

/-- A time of day. -/
def time : Scan Unit := do
  discard (fixed 2 0 23)
  char ':'
  discard (fixed 2 0 59)
  char ':'
  discard (fixed 2 0 60)
  discard (optional (char '.' *> many1 (one Char.isDigit)))

/-- The offset of a time from universal time. -/
def offset : Scan Unit :=
  discard (one fun c => c = 'Z' || c = 'z') <|> do
    discard (one fun c => c = '+' || c = '-')
    discard (fixed 2 0 23)
    char ':'
    discard (fixed 2 0 59)

/-- A date, a time or both. -/
def dateTime : Scan Unit :=
  (do
    date
    discard (optional (discard (one fun c => c = 'T' || c = 't' || c = ' ') *> time *>
      optional offset))) <|> time

end Scan

end DaoGen.Toml
