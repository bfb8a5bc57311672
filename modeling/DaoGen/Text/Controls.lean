set_option autoImplicit false

/-!
# Control sequences

A terminal takes an escape character and what belongs to it as a command and shows
nothing of it.  A command is the choice of a set of letters, or signs and numbers
that end in a last character.
-/

namespace DaoGen.Text

/-- Whether a character begins a command. -/
def isEscape (c : Char) : Bool := c = '\x1b' || c.toNat = 0x9B

/-- Whether a character may stand before the numbers of a command. -/
def isCommandSign (c : Char) : Bool := ['[', '(', ')', '#', ';', '?'].contains c

/-- Whether a character other than a digit ends a command. -/
def isCommandEnd (c : Char) : Bool :=
  ('A' ≤ c && c ≤ 'P') || ('f' ≤ c && c ≤ 'n') ||
    ['R', 'Z', 'c', 'q', 'r', 'y', '=', '>', '<'].contains c

/-- What follows the numbers of a command and its last character.  A number has at most
four digits; a digit may also be the last character, so the longest command counts:
`found` is what follows the longest one so far. -/
def afterNumbers (digits : Nat) (begun : Bool) (found : Option (List Char)) :
    List Char → Option (List Char)
  | [] => found
  | c :: rest =>
    if c.isDigit then
      if digits < 4 then afterNumbers (digits + 1) true (some rest) rest else some rest
    else if c = ';' then if begun then afterNumbers 0 true found rest else found
    else if isCommandEnd c then some rest
    else found

/-- What follows the command that an escape character before a text begins. -/
def afterCommand? : List Char → Option (List Char)
  | [] => none
  | c :: rest =>
    match (c = '(' || c = ')' : Bool), rest with
    | true, '0' :: more | true, '1' :: more | true, '2' :: more => some more
    | _, _ => afterNumbers 0 false none ((c :: rest).dropWhile isCommandSign)

/-- What is shown of a text: an escape character without a command is kept.  The number
is that of the characters that belong to a command that has begun. -/
def shownFrom : Nat → List Char → List Char
  | _, [] => []
  | skip + 1, _ :: rest => shownFrom skip rest
  | 0, c :: rest =>
    match if isEscape c then afterCommand? rest else none with
    | some after => shownFrom (rest.length - after.length) rest
    | none => c :: shownFrom 0 rest

/-- A text without its commands. -/
def shown (text : List Char) : List Char := shownFrom 0 text

end DaoGen.Text
