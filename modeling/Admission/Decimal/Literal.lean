import Admission.Decimal.Numeral

/-!
# Decimal literals

The notation for a number that need not be whole: a sign, digits with at most one point among
them, and an exponent of ten. At least one digit is required before the exponent; the point may
stand at either end.
-/

set_option autoImplicit false

namespace Admission.Decimal

/-- The number `mantissa * 10 ^ exponent`, negated if `negative`. -/
structure Literal where
  negative : Bool
  mantissa : Nat
  exponent : Int
deriving DecidableEq, Repr

/-- A sign in front of a text, and the rest: is it a minus sign? -/
def takeSign : List Char → Bool × List Char
  | '-' :: rest => (true, rest)
  | '+' :: rest => (false, rest)
  | s => (false, s)

/-- Digits, possibly after a sign, as an integer; nothing else may follow. -/
def readExponent? (s : List Char) : Option Int :=
  let (negative, digits) := takeSign s
  if digits.isEmpty || !digits.all Char.isDigit then none
  else some (if negative then -(valueOf digits : Int) else valueOf digits)

/-- The exponent after the digits of a literal: none, or `e` and an integer. -/
def exponentPart? : List Char → Option Int
  | [] => some 0
  | c :: rest => if c = 'e' || c = 'E' then readExponent? rest else none

/-- The digits after the point of a literal, if there is a point, and the rest. -/
def takeFraction : List Char → List Char × List Char
  | '.' :: rest => (rest.takeWhile Char.isDigit, rest.dropWhile Char.isDigit)
  | s => ([], s)

/-- Reads a literal. -/
def Literal.read? (s : List Char) : Option Literal :=
  let (negative, s) := takeSign s
  let whole := s.takeWhile Char.isDigit
  let (fraction, rest) := takeFraction (s.dropWhile Char.isDigit)
  if whole.isEmpty && fraction.isEmpty then none
  else
    match exponentPart? rest with
    | none => none
    | some e => some ⟨negative, valueOf (whole ++ fraction), e - fraction.length⟩

end Admission.Decimal
