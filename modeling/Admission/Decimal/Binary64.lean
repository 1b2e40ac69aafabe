/-!
# Rounding to the nearest binary floating-point number

A literal such as `0.1` is first read as the nearest number of the form m · 2^k with fewer than 54
binary digits in m and k at least -1074, a tie going to the even m. `nearest` finds it in exact
integer arithmetic. Numbers too large for the 64-bit format are not cut off here: what reads a
literal has a bound of its own, far below.
-/

set_option autoImplicit false

namespace Admission.Decimal

/-- The quotient of two natural numbers, rounded to the nearest one, a tie to the even one. -/
def roundDiv (n d : Nat) : Nat :=
  let q := n / d
  let twice := 2 * (n % d)
  if twice < d then q
  else if d < twice then q + 1
  else if q % 2 = 0 then q else q + 1

/-- The number `mantissa * 2 ^ exponent`. -/
structure Dyadic where
  mantissa : Nat
  exponent : Int
deriving DecidableEq, Repr

/-- The power of two in the numerator, for an exponent that may be negative. -/
def powerAbove (e : Int) : Nat := Nat.pow 2 e.toNat

/-- The power of two in the denominator, for an exponent that may be negative. -/
def powerBelow (e : Int) : Nat := Nat.pow 2 (-e).toNat

/-- The exponent of the greatest power of two that is not above `n / d`, for positive numbers. -/
def binaryExponent (n d : Nat) : Int :=
  let e : Int := (Nat.log2 n : Int) - Nat.log2 d
  if d * powerAbove e ≤ n * powerBelow e then e else e - 1

/-- The least exponent of the 64-bit format. -/
def leastExponent : Int := -1074

/-- The nearest floating-point number to `n / d`. -/
def nearest (n d : Nat) : Dyadic :=
  if n = 0 then ⟨0, 0⟩
  else
    let e := max (binaryExponent n d - 52) leastExponent
    ⟨roundDiv (n * powerBelow e) (d * powerAbove e), e⟩

/-- A natural number rounded to 53 binary digits. -/
def roundNat (n : Nat) : Nat :=
  let x := nearest n 1
  x.mantissa * powerAbove x.exponent / powerBelow x.exponent

end Admission.Decimal
