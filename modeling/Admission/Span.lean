/-!
# Lengths of time

A span is a whole number of nanoseconds. The longest one that anybody can name is `Span.longest`,
which stands for "never" when a status is shown. That limit is not part of the type: what reads a
span refuses a longer one, and `Span.times?`, the only operation here that could go beyond it, has
no result then.

A span is written in the largest of the units s, ms, µs and ns of which it contains at least one,
followed by the fraction without trailing zeros: `1.5s`, `250ms`, `1.001µs`, `0ns`.
-/

set_option autoImplicit false

namespace Admission

/-- A length of time in nanoseconds. -/
structure Span where
  nanos : Nat
deriving DecidableEq, Repr

namespace Span

def nanosPerSecond : Nat := 1000000000
def nanosPerMilli : Nat := 1000000
def nanosPerMicro : Nat := 1000

def zero : Span := ⟨0⟩

/-- The longest span there is: one nanosecond less than 2^64 seconds. -/
def longest : Span := ⟨UInt64.size * nanosPerSecond - 1⟩

def ofMillis (ms : Nat) : Span := ⟨ms * nanosPerMilli⟩

def ofWholeSeconds (s : Nat) : Span := ⟨s * nanosPerSecond⟩

/-- A span `n` times as long, if that is not longer than the longest one. -/
def times? (s : Span) (n : Nat) : Option Span :=
  if s.nanos * n ≤ longest.nanos then some ⟨s.nanos * n⟩ else none

/-- Half of a span, without the odd nanosecond. -/
def half (s : Span) : Span := ⟨s.nanos / 2⟩

/-- The whole milliseconds in a span. -/
def wholeMillis (s : Span) : Nat := s.nanos / nanosPerMilli

/-- The first whole millisecond that is not before the end of the span. -/
def millisCeil (s : Span) : Nat := (s.nanos + (nanosPerMilli - 1)) / nanosPerMilli

/-! ## Text -/

/-- The decimal digits of `n`, with zeros in front up to `width` digits. -/
def paddedDigits (width n : Nat) : List Char :=
  let digits := Nat.toDigits 10 n
  List.replicate (width - digits.length) '0' ++ digits

/-- A list without the zeros at its end. -/
def dropTrailingZeros (s : List Char) : List Char :=
  (s.reverse.dropWhile (· == '0')).reverse

/-- `n` counted in a unit that is `10 ^ places` nanoseconds long. -/
def inUnit (n places : Nat) (unit : List Char) : List Char :=
  let fraction := dropTrailingZeros (paddedDigits places (n % Nat.pow 10 places))
  let point := if fraction.isEmpty then [] else ['.']
  Nat.toDigits 10 (n / Nat.pow 10 places) ++ point ++ fraction ++ unit

/-- A span in its largest unit. -/
def chars (s : Span) : List Char :=
  if nanosPerSecond ≤ s.nanos then inUnit s.nanos 9 ['s']
  else if nanosPerMilli ≤ s.nanos then inUnit s.nanos 6 ['m', 's']
  else if nanosPerMicro ≤ s.nanos then inUnit s.nanos 3 ['µ', 's']
  else Nat.toDigits 10 s.nanos ++ ['n', 's']

def text (s : Span) : String := String.ofList s.chars

end Span

end Admission
