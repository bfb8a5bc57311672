set_option autoImplicit false

/-!
# Characters of source text

Which characters are blank, and which ones names are made of.  A name character is
any character that is neither blank nor a control character nor one of the ASCII
characters that the language gives a meaning of their own.
-/

namespace DaoGen.Syntax

/-- Characters without a meaning of their own between tokens: the controls from tab
to carriage return, every space separator, the line and paragraph separators, the
word joiner, the zero width space and the byte order mark. -/
def isBlank (c : Char) : Bool :=
  let n := c.toNat
  (0x09 ≤ n && n ≤ 0x0D) || n = 0x20 || n = 0xA0 || n = 0x1680 ||
    (0x2000 ≤ n && n ≤ 0x200B) || n = 0x2028 || n = 0x2029 || n = 0x202F || n = 0x205F ||
    n = 0x2060 || n = 0x3000 || n = 0xFEFF

/-- Characters that end a line comment. -/
def endsLine (c : Char) : Bool :=
  c = '\n' || c = '\r' || c.toNat = 0x2028 || c.toNat = 0x2029

/-- ASCII characters that stand for something else than a part of a name. -/
def reservedCharacters : List Char :=
  [':', ';', '\x60', '"', '\'', '@', '#', '.', ',', '|', '^', '&', '<', '=', '>', '+', '-', '*',
    '/', '\\', '%', '?', '!', '~', '(', ')', '[', ']', '{', '}']

/-- Characters inside a name. -/
def isNamePart (c : Char) : Bool :=
  0x20 ≤ c.toNat && !isBlank c && !reservedCharacters.contains c

end DaoGen.Syntax
