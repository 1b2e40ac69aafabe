import Admission.Decimal.Numeral
import Admission.Text.Blank

/-!
# How many entries may be occupied at once

A capacity is a number of slots or no limit. It bounds *distinct* entries: callers that share an
occupied entry cost nothing.

A capacity is written by hand as a numeral or as the word `unlimited` in any mixture of upper and
lower case, with blanks around it if they slipped in (`Capacity.parse?`).
-/

set_option autoImplicit false

namespace Admission

/-- The number of slots, if it is limited. -/
inductive Capacity where
  | limited (slots : UInt64)
  | unlimited
deriving DecidableEq, Repr

namespace Capacity

/-- Is there room for one more entry when `occupied` are in use? -/
def hasRoom (c : Capacity) (occupied : Nat) : Bool :=
  match c with
  | limited slots => occupied < slots.toNat
  | unlimited => true

/-- The ceiling that is in force unless somebody says otherwise. -/
def standard : Capacity := limited 16384

/-! ## Text -/

/-- The word for no limit. -/
def unlimitedWord : List Char := "unlimited".toList

/-- Reads a numeral of 64 bits or `unlimited`, without regard to blanks at the ends and to the case
of ASCII letters. -/
def parse? (s : String) : Option Capacity :=
  let word := Text.trim s.toList
  if word.map Char.toLower = unlimitedWord then some unlimited
  else (Decimal.readWord? word).map limited

/-- The form that `parse?` reads. -/
def text : Capacity → String
  | limited slots => toString slots.toNat
  | unlimited => "unlimited"

/-- The form in which logs and diagnostics name a capacity. -/
def debug : Capacity → String
  | limited slots => s!"Limited({slots.toNat})"
  | unlimited => "Unlimited"

end Capacity

end Admission
