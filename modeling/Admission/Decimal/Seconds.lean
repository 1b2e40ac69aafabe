import Admission.Decimal.Binary64
import Admission.Decimal.Literal
import Admission.Span
import Admission.Text.Blank

/-!
# A length of time as a decimal number of seconds

The literal is rounded twice: to the nearest binary floating-point number, and that number to the
nearest nanosecond, ties going to the even neighbour both times. The sign counts after the first
rounding, so a negative literal is refused unless it is so small that it rounds to zero. Spans of
2^64 seconds and more are refused.

Literals with an enormous exponent are decided without computing their powers of ten: one of at
least 10^24 is too large, one below 10^(-400) rounds to zero.
-/

set_option autoImplicit false

namespace Admission.Decimal

/-- The number of decimal digits of a natural number. -/
def digitCount (n : Nat) : Nat := (Nat.toDigits 10 n).length

/-- A bound for the size of a literal that is not zero: it lies below ten to this power, and not
below a tenth of it. -/
def Literal.magnitude (l : Literal) : Int := digitCount l.mantissa + l.exponent

/-- The floating-point number nearest to the absolute value of a literal. -/
def Literal.toDyadic (l : Literal) : Dyadic :=
  nearest (l.mantissa * Nat.pow 10 l.exponent.toNat) (Nat.pow 10 (-l.exponent).toNat)

/-- Is the number at least 2^64? -/
def Dyadic.exceedsWord (x : Dyadic) : Bool :=
  UInt64.size * powerBelow x.exponent ≤ x.mantissa * powerAbove x.exponent

/-- A number of seconds in nanoseconds. -/
def Dyadic.secondsToNanos (x : Dyadic) : Nat :=
  roundDiv (x.mantissa * powerAbove x.exponent * Span.nanosPerSecond) (powerBelow x.exponent)

/-- The span of a literal that counts seconds. -/
def Literal.seconds? (l : Literal) : Option Span :=
  if l.mantissa = 0 || l.magnitude < -400 then some Span.zero
  else if 24 < l.magnitude then none
  else
    let x := l.toDyadic
    if x.mantissa = 0 then some Span.zero
    else if l.negative || x.exceedsWord then none
    else some ⟨x.secondsToNanos⟩

/-- Reads a number of seconds, with blanks around it if they slipped in. -/
def parseSeconds? (s : String) : Option Span :=
  (Literal.read? (Text.trim s.toList)).bind Literal.seconds?

end Admission.Decimal
