import DaoGen.Number.Binary64
set_option autoImplicit false

/-!
# Number literals

A number is written in base ten, with a fraction and an exponent if it has them, or
in base sixteen after `0x`.  Underscores between digits mean nothing.  Other bases and
big numbers have no value here, and a number in base sixteen has one only below 2^63.
-/

namespace DaoGen.Number

/-- The value of a digit in base sixteen. -/
def hexDigit? (c : Char) : Option Nat :=
  if c.isDigit then some (c.toNat - '0'.toNat)
  else if 'a' ≤ c && c ≤ 'f' then some (c.toNat - 'a'.toNat + 10)
  else if 'A' ≤ c && c ≤ 'F' then some (c.toNat - 'A'.toNat + 10)
  else none

/-- The value of digits in base sixteen after a value read so far. -/
def hexFrom (value : Nat) : List Char → Option Nat
  | [] => some value
  | c :: rest => (hexDigit? c).bind fun d => hexFrom (16 * value + d) rest

/-- A whole number in base sixteen below 2^63. -/
def hex? (digits : List Char) : Option Binary64 :=
  if digits.isEmpty then none
  else
    (hexFrom 0 digits).bind fun value =>
      if value < Nat.pow 2 63 then some (Binary64.ofNat value) else none

/-- The value of digits in base ten. -/
def decimalValue (digits : List Char) : Nat :=
  digits.foldl (fun value c => 10 * value + (c.toNat - '0'.toNat)) 0

/-- The leading digits of a text, and what follows them. -/
def leadingDigits (text : List Char) : List Char × List Char :=
  (text.takeWhile Char.isDigit, text.dropWhile Char.isDigit)

/-- An exponent with its letter; nothing when the text is empty. -/
def exponent? : List Char → Option Int
  | [] => some 0
  | c :: rest =>
    let (negative, digits) :=
      match rest with
      | '-' :: more => (true, more)
      | '+' :: more => (false, more)
      | _ => (false, rest)
    if (c = 'e' || c = 'E') && !digits.isEmpty && digits.all Char.isDigit then
      some (if negative then -(decimalValue digits : Int) else decimalValue digits)
    else none

/-- A number in base ten. -/
def decimal? (text : List Char) : Option Binary64 :=
  let (whole, afterWhole) := leadingDigits text
  let (fraction, afterFraction) :=
    match afterWhole with
    | '.' :: rest => leadingDigits rest
    | _ => ([], afterWhole)
  if whole.isEmpty && fraction.isEmpty then none
  else
    (exponent? afterFraction).map fun e =>
      Binary64.ofDecimal (decimalValue (whole ++ fraction)) (e - fraction.length)

/-- The number that a literal stands for. -/
def ofLiteral? (text : List Char) : Option Binary64 :=
  match text.filter (· ≠ '_') with
  | '0' :: 'x' :: digits => hex? digits
  | '0' :: 'X' :: digits => hex? digits
  | other => decimal? other

end DaoGen.Number
