import Admission.Capacity
import Mathlib.Data.List.Basic

/-!
# What is read as a number

A numeral may have a plus sign and zeros in front, so a number has many of them. What they have in
common is stated here apart from the reader (`Decimal.IsNumeral`), and the reader of 64 bits is
shown to accept the numerals of all numbers that 64 bits hold, and nothing else. The digits in which
a number is written are one of its numerals; so a number and a capacity are read back from their
texts.
-/

set_option autoImplicit false

namespace Admission

namespace Decimal

/-- The text is a numeral of `n`: at least one digit, with at most one plus sign in front. -/
def IsNumeral (s : List Char) (n : Nat) : Prop :=
  ∃ digits, (s = digits ∨ s = '+' :: digits) ∧ digits ≠ [] ∧ (∀ c ∈ digits, c.isDigit = true) ∧
    valueOf digits = n

variable {s : List Char} {n : Nat}

theorem eq_unsigned_or (s : List Char) : s = unsigned s ∨ s = '+' :: unsigned s := by
  unfold unsigned
  split
  · exact Or.inr rfl
  · exact Or.inl rfl

theorem unsigned_of_isDigit {digits : List Char} (h : ∀ c ∈ digits, c.isDigit = true) :
    unsigned digits = digits := by
  unfold unsigned
  split
  · exact absurd (h '+' List.mem_cons_self) (by decide)
  · rfl

theorem IsNumeral.valueOf_unsigned (h : IsNumeral s n) : valueOf (unsigned s) = n := by
  obtain ⟨digits, rfl | rfl, -, hdigits, hvalue⟩ := h
  · rwa [unsigned_of_isDigit hdigits]
  · exact hvalue

theorem readNat?_eq_some_iff : readNat? s = some n ↔ IsNumeral s n := by
  have hread : readNat? s = some n ↔
      unsigned s ≠ [] ∧ (∀ c ∈ unsigned s, c.isDigit = true) ∧ valueOf (unsigned s) = n := by
    simp only [readNat?, Option.ite_none_left_eq_some, Option.some.injEq, Bool.or_eq_true,
      Bool.not_eq_true', not_or, List.isEmpty_iff, Bool.not_eq_false, List.all_eq_true, and_assoc,
      ne_eq]
  rw [hread]
  constructor
  · intro h
    exact ⟨unsigned s, eq_unsigned_or s, h⟩
  · rintro ⟨digits, rfl | rfl, hne, hdigits, hvalue⟩
    · rw [unsigned_of_isDigit hdigits]
      exact ⟨hne, hdigits, hvalue⟩
    · exact ⟨hne, hdigits, hvalue⟩

theorem IsNumeral.unique {m : Nat} (h : IsNumeral s n) (h' : IsNumeral s m) : n = m :=
  Option.some.inj ((readNat?_eq_some_iff.mpr h).symm.trans (readNat?_eq_some_iff.mpr h'))

theorem readWord?_eq_some_iff {w : UInt64} : readWord? s = some w ↔ IsNumeral s w.toNat := by
  rw [← readNat?_eq_some_iff, readWord?]
  cases hread : readNat? s with
  | none => simp
  | some n =>
    simp only [Option.ite_none_right_eq_some, Option.some.injEq]
    constructor
    · rintro ⟨hlt, rfl⟩
      exact (UInt64.toNat_ofNat_of_lt' hlt).symm
    · rintro rfl
      exact ⟨w.toNat_lt, UInt64.ofNat_toNat⟩

theorem readWord?_eq_none_iff : readWord? s = none ↔ ∀ n < UInt64.size, ¬ IsNumeral s n := by
  rw [Option.eq_none_iff_forall_ne_some]
  constructor
  · intro h n hlt hn
    refine h (UInt64.ofNat n) (readWord?_eq_some_iff.mpr ?_)
    rwa [UInt64.toNat_ofNat_of_lt' hlt]
  · intro h w hw
    exact h w.toNat w.toNat_lt (readWord?_eq_some_iff.mp hw)

/-- The digits of a number are one of its numerals. -/
theorem isNumeral_toDigits (n : Nat) : IsNumeral (Nat.toDigits 10 n) n := by
  refine ⟨Nat.toDigits 10 n, Or.inl rfl, Nat.toDigits_ne_nil, ?_, valueOf_toDigits n⟩
  intro c hc
  exact Nat.isDigit_of_mem_toDigits (by decide) (by decide) hc

theorem isNumeral_toString (n : Nat) : IsNumeral (toString n).toList n := by
  rw [Nat.toString_eq_ofList_toDigits, String.toList_ofList]
  exact isNumeral_toDigits n

end Decimal

/-! ## Capacities -/

theorem Text.trim_of_no_blank {s : List Char} (h : ∀ c ∈ s, Text.isBlank c = false) :
    Text.trim s = s := by
  have hdrop : ∀ t : List Char, (∀ c ∈ t, Text.isBlank c = false) →
      t.dropWhile Text.isBlank = t := by
    intro t ht
    cases t with
    | nil => rfl
    | cons c t => exact List.dropWhile_cons_of_neg (by simp [ht c List.mem_cons_self])
  rw [Text.trim, hdrop s h, hdrop s.reverse, List.reverse_reverse]
  intro c hc
  exact h c (List.mem_reverse.mp hc)

namespace Capacity

/-- A digit is not blank, and it is the same in lower case. -/
theorem of_isDigit {c : Char} (h : c.isDigit = true) : Text.isBlank c = false ∧ c.toLower = c := by
  have hrange : 48 ≤ c.toNat ∧ c.toNat ≤ 57 := by
    simpa [Char.isDigit, UInt32.le_iff_toNat_le] using h
  constructor
  · simp [Text.isBlank]
    omega
  · refine dif_neg ?_
    rintro ⟨hle, -⟩
    have hupper : 65 ≤ c.toNat := UInt32.le_iff_toNat_le.mp hle
    omega

theorem map_toLower_ne_unlimitedWord {digits : List Char} (h : ∀ c ∈ digits, c.isDigit = true) :
    digits.map Char.toLower ≠ unlimitedWord := by
  intro heq
  have hu : 'u' ∈ digits.map Char.toLower := by
    rw [heq]
    decide
  obtain ⟨c, hc, hlower⟩ := List.mem_map.mp hu
  rw [(of_isDigit (h c hc)).2] at hlower
  subst hlower
  exact absurd (h _ hc) (by decide)

/-- **A capacity is read back from its text.** -/
theorem parse?_text (k : Capacity) : parse? k.text = some k := by
  cases k with
  | unlimited => decide
  | limited slots =>
    have hdigits : ∀ c ∈ (text (limited slots)).toList, c.isDigit = true := by
      intro c hc
      rw [text, Nat.toString_eq_ofList_toDigits, String.toList_ofList] at hc
      exact Nat.isDigit_of_mem_toDigits (by decide) (by decide) hc
    have htrim : Text.trim (text (limited slots)).toList = (text (limited slots)).toList :=
      Text.trim_of_no_blank fun c hc => (of_isDigit (hdigits c hc)).1
    have hread : Decimal.readWord? (text (limited slots)).toList = some slots :=
      Decimal.readWord?_eq_some_iff.mpr (Decimal.isNumeral_toString slots.toNat)
    rw [parse?, htrim, if_neg (map_toLower_ne_unlimitedWord hdigits), hread]
    rfl

end Capacity

end Admission
