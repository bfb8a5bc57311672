import DaoGen.Number.Binary64
set_option autoImplicit false

/-!
# Shortest decimals

A floating point number is written with the fewest decimal digits that read back as
the same number, and of those with the digits nearest to it.  The digits are found on
grids of powers of ten, the coarsest first: the numbers that read back form an
interval, and a grid has a point in it exactly when one of the two neighbours of the
number on that grid lies in it.
-/

namespace DaoGen

/-- Decimal digits times a power of ten. -/
structure Decimal where
  digits : Nat
  power : Int
  deriving DecidableEq, Repr, Inhabited

namespace Binary64

/-- A quotient of whole numbers as a power of a base times a factor. -/
def quotient (factor base : Nat) (power : Int) : Nat × Nat :=
  if 0 ≤ power then (factor * Nat.pow base power.toNat, 1)
  else (factor, Nat.pow base (-power).toNat)

/-- Whether the first quotient is less than the second. -/
def quotientLess (a b : Nat × Nat) : Bool := a.1 * b.2 < b.1 * a.2

/-- Whether a decimal reads back as a finite number.  The bounds are half a unit away,
below a power of two a quarter; they belong to the interval when the last binary digit
is even. -/
def readsBack (m : Nat) (exponent : Int) (d : Decimal) : Bool :=
  let below := if m = Nat.pow 2 52 && leastExponent < exponent then 4 * m - 1 else 4 * m - 2
  let low := quotient below 2 (exponent - 2)
  let high := quotient (4 * m + 2) 2 (exponent - 2)
  let x := quotient d.digits 10 d.power
  if m % 2 = 0 then !quotientLess x low && !quotientLess high x
  else quotientLess low x && quotientLess x high

/-- The best decimal on one grid, if any on it reads back. -/
def onGrid (m : Nat) (exponent power : Int) : Option Decimal :=
  let x := quotient m 2 exponent
  let unit := quotient 1 10 power
  let num := x.1 * unit.2
  let den := x.2 * unit.1
  let lower : Decimal := ⟨num / den, power⟩
  let upper : Decimal := ⟨num / den + 1, power⟩
  let lowerFirst := 2 * (num % den) ≤ den
  let (first, second) := if lowerFirst then (lower, upper) else (upper, lower)
  if readsBack m exponent first then some first
  else if readsBack m exponent second then some second
  else none

/-- The best decimal on the coarsest grid that has one, from one grid downwards. -/
def onFirstGrid (m : Nat) (exponent : Int) : Nat → Int → Decimal
  | 0, power => ⟨0, power⟩
  | bound + 1, power =>
    (onGrid m exponent power).getD (onFirstGrid m exponent bound (power - 1))

/-- The shortest decimal of a finite number. -/
def shortest (m : Nat) (exponent : Int) : Decimal :=
  if m = 0 then ⟨0, 0⟩ else onFirstGrid m exponent 700 310

end Binary64

/-- A decimal in positional notation, with a fraction of at least one digit. -/
def Decimal.positional (d : Decimal) : String :=
  let ds := Nat.toDigits 10 d.digits
  if 0 ≤ d.power then String.ofList (ds ++ List.replicate d.power.toNat '0' ++ ['.', '0'])
  else
    let places := (-d.power).toNat
    let padded := List.replicate (places + 1 - ds.length) '0' ++ ds
    String.ofList (padded.take (padded.length - places) ++
      '.' :: padded.drop (padded.length - places))

end DaoGen
