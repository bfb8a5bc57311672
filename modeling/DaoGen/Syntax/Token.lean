import DaoGen.Syntax.Tree
set_option autoImplicit false

/-!
# Tokens

The kinds of tokens that the rules of the grammar are made of.  Words and marks stand
for themselves; the other kinds stand for any text of some form.
-/

namespace DaoGen.Syntax

/-- The mark around a string. -/
inductive Quote where
  | single
  | double
  deriving DecidableEq, Hashable, Repr, Inhabited

/-- How a quote is written. -/
def Quote.char : Quote → Char
  | single => '\''
  | double => '"'

/-- A kind of token. -/
inductive Token where
  /-- the end of the text -/
  | stop
  | name
  /-- a name after a number sign -/
  | privateName
  | number
  /-- text of a string up to its quote or an escape -/
  | quoted (quote : Quote)
  /-- a backslash with what it escapes -/
  | escape
  /-- text of a template up to a gap, an escape or the end -/
  | fragment
  /-- what stands between the slashes of a regular expression -/
  | pattern
  /-- the slash that closes a regular expression -/
  | patternEnd
  /-- the letters after a regular expression -/
  | flags
  | comment
  /-- a comment that starts with an arrow or with `<!--` -/
  | arrowComment
  /-- the line at the start of a text that names its interpreter -/
  | interpreter
  /-- nothing, where a semicolon may be left out -/
  | omitted
  /-- nothing, where no body follows a signature -/
  | omittedAfterSignature
  /-- the question mark of a choice between two expressions -/
  | choice
  | word (text : String)
  | mark (text : String)
  deriving DecidableEq, Hashable, Repr, Inhabited

namespace Token

/-- The token that stands for itself. -/
def ofText (text : String) : Token :=
  match text.toList.head? with
  | some c => if c.isAlpha then word text else mark text
  | none => mark text

/-- Comments may stand between any other two tokens. -/
def isExtra (t : Token) : Bool := t = comment || t = arrowComment

/-- Tokens without text leave no leaf in a tree. -/
def isEmpty (t : Token) : Bool := t = omitted || t = omittedAfterSignature

/-- What a token stands for in a tree. -/
def kind : Token → Kind
  | name => .name
  | privateName => .privateName
  | number => .number
  | quoted _ => .fragment
  | fragment => .fragment
  | escape => .escape
  | pattern => .fragment
  | flags => .fragment
  | comment => .comment
  | arrowComment => .comment
  | interpreter => .comment
  | word "true" => .true
  | word "false" => .false
  | word "null" => .null
  | word "this" => .operation
  | word "super" => .operation
  | word "undefined" => .operation
  | _ => .mark

end Token

end DaoGen.Syntax
