/-!
# Hexadecimal digits

Sixteen digits, of which the last six are the first letters of the alphabet in either case.
-/

set_option autoImplicit false

namespace Admission.Text

/-- The value of a hexadecimal digit. -/
def hexValue? (c : Char) : Option Nat :=
  if '0' ≤ c && c ≤ '9' then some (c.toNat - 48)
  else if 'a' ≤ c && c ≤ 'f' then some (c.toNat - 87)
  else if 'A' ≤ c && c ≤ 'F' then some (c.toNat - 55)
  else none

/-- The number that hexadecimal digits denote, the most significant first, if all of the characters
are such digits. -/
def readHex? (s : List Char) : Option Nat :=
  s.foldlM (fun n c => (hexValue? c).map (n * 16 + ·)) 0

theorem readHex?_nil : readHex? [] = some 0 := rfl

/-- The last digit counts once, and the number of the digits before it sixteen times. -/
theorem readHex?_concat (s : List Char) (c : Char) :
    readHex? (s ++ [c]) = (readHex? s).bind fun n => (hexValue? c).map (n * 16 + ·) := by
  simp [readHex?, List.foldlM_append]

/-- A digit is less than sixteen. -/
theorem hexValue?_lt {c : Char} {n : Nat} (h : hexValue? c = some n) : n < 16 := by
  have h9 : ('9' : Char).toNat = 57 := rfl
  have hf : ('f' : Char).toNat = 102 := rfl
  have hF : ('F' : Char).toNat = 70 := rfl
  rw [hexValue?] at h
  split at h
  · next hc =>
    simp only [Bool.and_eq_true, decide_eq_true_eq, Char.le_def, UInt32.le_iff_toNat_le,
      Char.toNat_val] at hc
    cases h
    omega
  · split at h
    · next hc =>
      simp only [Bool.and_eq_true, decide_eq_true_eq, Char.le_def, UInt32.le_iff_toNat_le,
        Char.toNat_val] at hc
      cases h
      omega
    · split at h
      · next hc =>
        simp only [Bool.and_eq_true, decide_eq_true_eq, Char.le_def, UInt32.le_iff_toNat_le,
          Char.toNat_val] at hc
        cases h
        omega
      · cases h

end Admission.Text
