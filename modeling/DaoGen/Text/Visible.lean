import DaoGen.Text.Unseen
set_option autoImplicit false

/-!
# Visible text

A text is shown between double quotes with every character visible: quotes,
backslashes and the usual controls are written with a backslash, and what cannot be
seen, or would be drawn onto the character before it, is written by its number.
-/

namespace DaoGen.Text

/-- A character by its number. -/
def numbered (c : Char) : List Char :=
  ['\\', 'u', '{'] ++ (Nat.toDigits 16 c.toNat) ++ ['}']

/-- What one character becomes. -/
def visible (c : Char) : List Char :=
  if c = '\x00' then ['\\', '0']
  else if c = '\t' then ['\\', 't']
  else if c = '\r' then ['\\', 'r']
  else if c = '\n' then ['\\', 'n']
  else if c = '"' then ['\\', '"']
  else if c = '\\' then ['\\', '\\']
  else if isMark c || isUnseen c then numbered c
  else [c]

/-- A text with every character visible, between double quotes. -/
def showVisible (s : String) : String :=
  String.ofList ('"' :: s.toList.flatMap visible ++ ['"'])

end DaoGen.Text
