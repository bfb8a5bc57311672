set_option autoImplicit false

/-!
# Binary floating point

A number that is not negative is rounded to 53 binary digits: the nearest such number,
and of two that are equally near the one with an even last digit.  Numbers too large
become infinite; very small ones keep fewer digits.
-/

namespace DaoGen

/-- A floating point number that is not negative: an exact multiple of a power of
two, or infinity. -/
inductive Binary64 where
  | finite (significand : Nat) (exponent : Int)
  | infinite
  deriving DecidableEq, Repr, Inhabited

namespace Binary64

/-- The least power of two that a number is a multiple of. -/
def leastExponent : Int := -1074

/-- The greatest power of two that a 53 digit number is a multiple of. -/
def greatestExponent : Int := 971

/-- A quotient rounded to a whole number, a half to the even side. -/
def roundDiv (num den : Nat) : Nat :=
  let q := num / den
  let twice := 2 * (num % den)
  if twice < den then q
  else if den < twice then q + 1
  else if q % 2 = 0 then q else q + 1

/-- A quotient in units of a power of two, rounded to a whole number. -/
def scaled (num den : Nat) (exponent : Int) : Nat :=
  if 0 ≤ exponent then roundDiv num (den * Nat.pow 2 exponent.toNat)
  else roundDiv (num * Nat.pow 2 (-exponent).toNat) den

/-- Whether a quotient is less than a power of two. -/
def belowPower (num den : Nat) (power : Int) : Bool :=
  if 0 ≤ power then num < den * Nat.pow 2 power.toNat
  else num * Nat.pow 2 (-power).toNat < den

/-- The number nearest to a quotient. -/
def ofQuotient (num den : Nat) : Binary64 :=
  if num = 0 then finite 0 leastExponent
  else
    let guess : Int := (num.log2 : Int) - (den.log2 : Int)
    let top := if belowPower num den guess then guess - 1 else guess
    let exponent := max (top - 52) leastExponent
    let m := scaled num den exponent
    let (m, exponent) := if m = Nat.pow 2 53 then (Nat.pow 2 52, exponent + 1) else (m, exponent)
    if greatestExponent < exponent then infinite else finite m exponent

/-- The number nearest to a whole number. -/
def ofNat (n : Nat) : Binary64 := ofQuotient n 1

/-- The number nearest to digits times a power of ten.  Far outside the range of
numbers the power itself is not computed. -/
def ofDecimal (digits : Nat) (power : Int) : Binary64 :=
  if digits = 0 then ofQuotient 0 1
  else
    let size : Int := (Nat.toDigits 10 digits).length + power
    if 400 < size then infinite
    else if size < -400 then ofQuotient 0 1
    else if 0 ≤ power then ofQuotient (digits * Nat.pow 10 power.toNat) 1
    else ofQuotient digits (Nat.pow 10 (-power).toNat)

/-- The bits of a number: its exponent field above 52 bits of its significand. -/
def bits : Binary64 → Nat
  | infinite => 0x7FF * Nat.pow 2 52
  | finite m exponent =>
    if m < Nat.pow 2 52 then m
    else (exponent + 1075).toNat * Nat.pow 2 52 + (m - Nat.pow 2 52)

/-- The whole number that a finite number is, if it is one. -/
def toNat? : Binary64 → Option Nat
  | infinite => none
  | finite m exponent =>
    if 0 ≤ exponent then some (m * Nat.pow 2 exponent.toNat)
    else if m % Nat.pow 2 (-exponent).toNat = 0 then some (m / Nat.pow 2 (-exponent).toNat)
    else none

end Binary64

end DaoGen
