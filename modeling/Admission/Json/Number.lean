import Admission.Decimal.Binary64
import Admission.Decimal.Numeral
import Admission.Json.Text

/-!
# Reading JSON numbers

A whole number of 64 bits is read exactly. All others, those with a point or an exponent, those
that are too long and also minus zero, are fractions: no value of this library is one, so only
their form matters, and whether a double-precision number could hold them; one that is too large
breaks the rules.

The size is judged as a reader with bounded memory judges it. It keeps the digits as long as they
fit in 64 bits, counts the later digits before the point, and forgets those after it.
-/

set_option autoImplicit false

namespace Admission.Json

/-- A number that was read. -/
inductive Number where
  /-- A number below 2^64. -/
  | natural (n : Nat)
  /-- The negative of a positive number of at most 2^63. -/
  | negative (n : Nat)
  /-- Any other number. -/
  | fraction
deriving DecidableEq, Repr

/-- The value of a digit. -/
def digitValue (c : Char) : Nat := c.toNat - '0'.toNat

/-- The first digits of a number and the power of ten of the last of them. -/
structure Leading where
  digits : Nat
  exponent : Int
deriving DecidableEq, Repr

/-- Does another digit fit in 64 bits? -/
def Leading.fits (l : Leading) (c : Char) : Bool := l.digits * 10 + digitValue c < UInt64.size

/-- The first digits of a number without its fraction. -/
def Leading.ofWhole (digits : List Char) : Leading :=
  go ⟨0, 0⟩ digits
where
  /-- Takes digits as long as they fit, and then counts. -/
  go (l : Leading) : List Char → Leading
    | [] => l
    | c :: rest =>
      if l.fits c then go { l with digits := l.digits * 10 + digitValue c } rest
      else { l with exponent := l.exponent + (rest.length + 1) }

/-- Takes digits after the point as long as they fit. -/
def Leading.addFraction (l : Leading) : List Char → Leading
  | [] => l
  | c :: rest =>
    if l.fits c then
      addFraction ⟨l.digits * 10 + digitValue c, l.exponent - 1⟩ rest
    else l

/-- The first number that rounds to infinity in double precision. -/
def doubleBound : Nat := Nat.pow 2 1024 - Nat.pow 2 970

/-- Is a number with these first digits too large for double precision? Ten to a power above 308
is; below, the digits and the power are rounded, and then their product. -/
def Leading.isTooLarge (l : Leading) : Bool :=
  l.digits ≠ 0 && 0 < l.exponent &&
    (308 < l.exponent ||
      doubleBound ≤ Decimal.roundNat l.digits * Decimal.roundNat (Nat.pow 10 l.exponent.toNat))

/-- A fraction, unless it is too large. -/
def fractionOf (l : Leading) (rest : List Char) : Parsed Number :=
  if l.isTooLarge then .error .malformed else .ok (.fraction, rest)

/-- The exponents that are taken by their value; greater ones are only told apart by sign. -/
def exponentBound : Nat := Nat.pow 2 31

/-- The fault where a digit is missing. -/
def missingDigit (rest : List Char) : Fault := if rest.isEmpty then .truncated else .malformed

/-- Reads the digits of an exponent and concludes the number. -/
def readExponent (l : Leading) (below : Bool) (s : List Char) : Parsed Number :=
  let digits := s.takeWhile Char.isDigit
  let rest := s.dropWhile Char.isDigit
  if digits.isEmpty then .error (missingDigit rest)
  else
    let e := Decimal.valueOf digits
    if exponentBound ≤ e then
      if l.digits ≠ 0 && !below then .error .malformed else .ok (.fraction, rest)
    else fractionOf { l with exponent := if below then l.exponent - e else l.exponent + e } rest

/-- Concludes a number after its digits. -/
def afterDigits (l : Leading) : List Char → Option (Parsed Number)
  | c :: rest =>
    if c = 'e' || c = 'E' then
      match rest with
      | '+' :: rest => some (readExponent l false rest)
      | '-' :: rest => some (readExponent l true rest)
      | rest => some (readExponent l false rest)
    else none
  | [] => none

/-- A whole number without point and exponent. -/
def wholeNumber (isNegative : Bool) (n : Nat) : Number :=
  if isNegative then
    if n = 0 || Nat.pow 2 63 < n then .fraction else .negative n
  else .natural n

/-- Reads what follows the digits before the point. -/
def afterWhole (isNegative : Bool) (digits rest : List Char) : Parsed Number :=
  let l := Leading.ofWhole digits
  match rest with
  | '.' :: rest =>
    let fraction := rest.takeWhile Char.isDigit
    let rest := rest.dropWhile Char.isDigit
    if fraction.isEmpty then .error (missingDigit rest)
    else
      let l := l.addFraction fraction
      (afterDigits l rest).getD (fractionOf l rest)
  | rest =>
    (afterDigits l rest).getD
      (if Decimal.valueOf digits < UInt64.size then
        .ok (wholeNumber isNegative (Decimal.valueOf digits), rest)
      else fractionOf l rest)

/-- Reads a number behind its sign. A zero in front may not be followed by another digit. -/
def readNumber (isNegative : Bool) : List Char → Parsed Number
  | [] => .error .truncated
  | c :: rest =>
    if c = '0' then
      if (rest.head?.map Char.isDigit).getD false then .error .malformed
      else afterWhole isNegative [c] rest
    else if c.isDigit then
      afterWhole isNegative (c :: rest.takeWhile Char.isDigit) (rest.dropWhile Char.isDigit)
    else .error .malformed

/-! ## Skipping a number -/

/-- Skips at least one digit. -/
def skipDigits (s : List Char) : Except Fault (List Char) :=
  if (s.takeWhile Char.isDigit).isEmpty then .error .malformed else .ok (s.dropWhile Char.isDigit)

/-- Skips an exponent, if there is one. -/
def skipExponent : List Char → Except Fault (List Char)
  | c :: rest =>
    if c = 'e' || c = 'E' then
      match rest with
      | '+' :: rest => skipDigits rest
      | '-' :: rest => skipDigits rest
      | rest => skipDigits rest
    else .ok (c :: rest)
  | [] => .ok []

/-- Skips a fraction and an exponent, if there are any. -/
def skipFraction : List Char → Except Fault (List Char)
  | '.' :: rest =>
    match skipDigits rest with
    | .ok rest => skipExponent rest
    | .error f => .error f
  | rest => skipExponent rest

/-- Skips a number behind its sign. Its size does not matter, and a text that ends in the middle of
it breaks the rules. -/
def skipNumber : List Char → Except Fault (List Char)
  | [] => .error .malformed
  | c :: rest =>
    if c = '0' then
      if (rest.head?.map Char.isDigit).getD false then .error .malformed else skipFraction rest
    else if c.isDigit then skipFraction (rest.dropWhile Char.isDigit)
    else .error .malformed

end Admission.Json
