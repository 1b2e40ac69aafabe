/-!
# Decimal numerals

The plain notation for a count: digits, at most one plus sign in front of them, any number of
leading zeros, and nothing else.
-/

set_option autoImplicit false

namespace Admission.Decimal

/-- The number that a row of digits denotes, the most significant first. -/
def valueOf (digits : List Char) : Nat := Nat.ofDigitChars 10 digits 0

/-- A numeral without the plus sign in front. -/
def unsigned : List Char → List Char
  | '+' :: rest => rest
  | s => s

/-- Reads a numeral: at least one digit, with at most one plus sign in front. -/
def readNat? (s : List Char) : Option Nat :=
  let digits := unsigned s
  if digits.isEmpty || !digits.all Char.isDigit then none else some (valueOf digits)

/-- Reads a numeral of 64 bits. -/
def readWord? (s : List Char) : Option UInt64 :=
  match readNat? s with
  | some n => if n < UInt64.size then some (UInt64.ofNat n) else none
  | none => none

/-- A number is read back from its digits. -/
theorem valueOf_toDigits (n : Nat) : valueOf (Nat.toDigits 10 n) = n :=
  Nat.ofDigitChars_toDigits (by decide) (by decide)

end Admission.Decimal
