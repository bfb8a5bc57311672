set_option autoImplicit false

/-!
# Quoted text

A text is written between double quotes.  A double quote, a backslash and the
three control characters line feed, carriage return and tab are written as a
backslash and one more character; every other character stands for itself.
-/

namespace DaoGen.Text

/-- What one character becomes between double quotes. -/
def escape (c : Char) : List Char :=
  if c = '"' then ['\\', '"']
  else if c = '\\' then ['\\', '\\']
  else if c = '\n' then ['\\', 'n']
  else if c = '\r' then ['\\', 'r']
  else if c = '\t' then ['\\', 't']
  else [c]

/-- The characters of a text as they stand between double quotes. -/
def escapeAll (cs : List Char) : List Char := cs.flatMap escape

@[simp] theorem escapeAll_nil : escapeAll [] = [] := rfl

@[simp] theorem escapeAll_cons (c : Char) (cs : List Char) :
    escapeAll (c :: cs) = escape c ++ escapeAll cs := rfl

/-- The written form of a text: its escaped characters between double quotes. -/
def quoteChars (cs : List Char) : List Char := '"' :: escapeAll cs ++ ['"']

/-- The written form of a string. -/
def quote (s : String) : String := String.ofList (quoteChars s.toList)

theorem toList_quote (s : String) : (quote s).toList = quoteChars s.toList := by
  simp [quote]

end DaoGen.Text
