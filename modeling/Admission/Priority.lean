/-!
# Priorities of callers

A priority is a signed number of 32 bits; the higher one goes first. The bounds of such a number,
-2147483648 and 2147483647, are part of the type, so that a priority can be compared and printed as
the integer it is.
-/

set_option autoImplicit false

namespace Admission

/-- The precedence of a caller; higher values win. -/
structure Priority where
  value : Int
  least_le : -2147483648 ≤ value
  lt_bound : value < 2147483648
deriving DecidableEq

namespace Priority

@[ext] theorem ext {p q : Priority} (h : p.value = q.value) : p = q := by
  cases p; cases q; simp_all

/-- The priority with a given value, if 32 bits hold it. -/
def ofInt? (n : Int) : Option Priority :=
  if h : -2147483648 ≤ n ∧ n < 2147483648 then some ⟨n, h.1, h.2⟩ else none

/-- The priority of a caller that names none. -/
def standard : Priority := ⟨0, by decide, by decide⟩

/-- A class number as a priority; class numbers that 32 bits do not hold wrap. -/
def ofClass (n : Nat) : Priority :=
  ⟨Int.bmod n 4294967296,
    by have := @Int.le_bmod n 4294967296 (by decide); omega,
    by have := @Int.bmod_lt n 4294967296 (by decide); omega⟩

instance : LE Priority := ⟨fun p q => p.value ≤ q.value⟩
instance : LT Priority := ⟨fun p q => p.value < q.value⟩
instance (p q : Priority) : Decidable (p ≤ q) := inferInstanceAs (Decidable (p.value ≤ q.value))
instance (p q : Priority) : Decidable (p < q) := inferInstanceAs (Decidable (p.value < q.value))

instance : Ord Priority := ⟨fun p q => compare p.value q.value⟩

theorem compare_def (p q : Priority) : compare p q = compare p.value q.value := rfl

instance : Std.TransOrd Priority where
  eq_swap := by intro p q; exact Std.OrientedOrd.eq_swap (a := p.value) (b := q.value)
  isLE_trans := by
    intro p q r; exact Std.TransOrd.isLE_trans (a := p.value) (b := q.value) (c := r.value)

instance : Std.LawfulEqOrd Priority where
  compare_self := by intro p; exact Std.ReflOrd.compare_self (a := p.value)
  eq_of_compare := by
    intro p q h; exact Priority.ext (Std.LawfulEqOrd.eq_of_compare (a := p.value) (b := q.value) h)

/-! ## Text -/

/-- How a priority is laid out in a field: how wide the field is, and what fills it. -/
inductive Layout where
  /-- The number alone. -/
  | plain
  /-- The number at the right end of a field. -/
  | rightAligned (width : Nat)
  /-- The number at the left end of a field. -/
  | leftAligned (width : Nat)
  /-- The number with its sign, also if it is not negative. -/
  | signed
  /-- The number with zeros between its sign and its digits, up to a width. -/
  | zeroFilled (width : Nat)
deriving DecidableEq, Repr

/-- A minus sign, for a negative number only. -/
def sign (p : Priority) : List Char := if p.value < 0 then ['-'] else []

/-- The digits of the absolute value. -/
def digits (p : Priority) : List Char := Nat.toDigits 10 p.value.natAbs

/-- A priority in a layout. -/
def chars (p : Priority) : Layout → List Char
  | .plain => p.sign ++ p.digits
  | .rightAligned width =>
    let s := p.sign ++ p.digits
    List.replicate (width - s.length) ' ' ++ s
  | .leftAligned width =>
    let s := p.sign ++ p.digits
    s ++ List.replicate (width - s.length) ' '
  | .signed => (if p.value < 0 then ['-'] else ['+']) ++ p.digits
  | .zeroFilled width =>
    p.sign ++ List.replicate (width - (p.sign ++ p.digits).length) '0' ++ p.digits

/-- A priority as text. -/
def format (p : Priority) (layout : Layout) : String := String.ofList (p.chars layout)

def text (p : Priority) : String := p.format .plain

/-- The form in which diagnostics show a priority. -/
def debug (p : Priority) : String := "Priority(" ++ p.text ++ ")"

end Priority

end Admission
