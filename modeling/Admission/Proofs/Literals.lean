import Admission.Decimal.Literal
import Admission.Proofs.Variables
import Mathlib.Algebra.Order.Field.Power
import Mathlib.Data.Rat.Cast.Order
import Mathlib.Tactic.FieldSimp
import Mathlib.Tactic.Ring

/-!
# What a literal says

A literal is read from its left end: a sign if there is one, the digits as far as they go, a point
and the digits behind it, and then all the rest has to be an exponent. Its exact value is stated
here part by part, without the reader (`Decimal.IsLiteral`), and the reader is shown to miss none:

> no part begins with a character with which the part before it could go on.

So there is a literal to be read from a text exactly if the text is one, and it has the value that
the text says (`Decimal.read?_iff`).
-/

set_option autoImplicit false

namespace Admission.Decimal

/-! ## Values -/

/-- The opposite of `x` behind a minus sign, and else `x`. -/
def signed {α : Type} [Neg α] (negative : Bool) (x : α) : α := if negative then -x else x

/-- The exact value of a literal without its sign. -/
def Literal.size (l : Literal) : ℚ := l.mantissa * 10 ^ l.exponent

/-- The exact value of a literal. -/
def Literal.value (l : Literal) : ℚ := signed l.negative l.size

theorem valueOf_append (a b : List Char) :
    valueOf (a ++ b) = valueOf a * 10 ^ b.length + valueOf b := by
  rw [valueOf, Nat.ofDigitChars_append, Nat.ofDigitChars_eq_ofDigitChars_zero, Nat.mul_comm]
  rfl

/-! ## The grammar -/

/-- A text of nothing but digits. -/
def AreDigits (s : List Char) : Prop := ∀ c ∈ s, c.isDigit = true

instance (s : List Char) : Decidable (AreDigits s) :=
  decidable_of_iff (s.all Char.isDigit = true) List.all_eq_true

/-- The sign in front: is it a minus sign? -/
inductive IsSign : List Char → Bool → Prop
  | none : IsSign [] false
  | plus : IsSign ['+'] false
  | minus : IsSign ['-'] true

/-- Digits with at most one point among them, at least one digit, and the number they denote. -/
inductive IsMantissa : List Char → ℚ → Prop
  | whole {digits : List Char} (hne : digits ≠ []) (h : AreDigits digits) :
    IsMantissa digits (valueOf digits)
  | point {whole fraction : List Char} (hne : whole ++ fraction ≠ []) (hwhole : AreDigits whole)
    (hfraction : AreDigits fraction) :
    IsMantissa (whole ++ '.' :: fraction) (valueOf whole + valueOf fraction / 10 ^ fraction.length)

/-- The exponent at the end: nothing, or a mark and an integer. -/
inductive IsExponent : List Char → ℤ → Prop
  | none : IsExponent [] 0
  | power {mark : Char} {sign digits : List Char} {negative : Bool}
    (hmark : mark = 'e' ∨ mark = 'E') (hsign : IsSign sign negative) (hne : digits ≠ [])
    (h : AreDigits digits) :
    IsExponent (mark :: (sign ++ digits)) (signed negative (valueOf digits : ℤ))

/-- The text is a decimal literal, and `v` is its exact value. -/
def IsLiteral (s : List Char) (v : ℚ) : Prop :=
  ∃ sign negative mantissa m exponent e, IsSign sign negative ∧ IsMantissa mantissa m ∧
    IsExponent exponent e ∧ s = sign ++ mantissa ++ exponent ∧ v = signed negative (m * 10 ^ e)

/-! ## Signs and digits -/

section Parts

variable {s sign digits rest : List Char} {negative : Bool}

theorem ne_sign_of_isDigit {c : Char} (h : c.isDigit = true) : c ≠ '-' ∧ c ≠ '+' := by
  constructor <;> rintro rfl <;> exact absurd h (by decide)

theorem isSign_takeSign (s : List Char) :
    ∃ sign, s = sign ++ (takeSign s).2 ∧ IsSign sign (takeSign s).1 := by
  unfold takeSign
  split
  · exact ⟨['-'], rfl, .minus⟩
  · exact ⟨['+'], rfl, .plus⟩
  · exact ⟨[], rfl, .none⟩

theorem takeSign_append (h : IsSign sign negative) (hrest : ∀ c ∈ rest.head?, c ≠ '-' ∧ c ≠ '+') :
    takeSign (sign ++ rest) = (negative, rest) := by
  cases h with
  | plus => rfl
  | minus => rfl
  | none =>
    rw [List.nil_append]
    unfold takeSign
    split
    · exact absurd rfl (hrest '-' rfl).1
    · exact absurd rfl (hrest '+' rfl).2
    · rfl

theorem span_digits (h : AreDigits digits) (hrest : ∀ c ∈ rest.head?, c.isDigit = false) :
    (digits ++ rest).takeWhile Char.isDigit = digits ∧
      (digits ++ rest).dropWhile Char.isDigit = rest := by
  rw [List.takeWhile_append_of_pos h, List.dropWhile_append_of_pos h]
  cases rest with
  | nil => simp
  | cons c rest => simp [hrest c rfl]

theorem areDigits_takeWhile (s : List Char) : AreDigits (s.takeWhile Char.isDigit) :=
  fun _ hc => List.mem_takeWhile_imp hc

theorem AreDigits.head_ne (h : AreDigits digits) : ∀ c ∈ digits.head?, c ≠ '-' ∧ c ≠ '+' :=
  fun c hc => ne_sign_of_isDigit (h c (List.mem_of_head? hc))

end Parts

/-! ## Exponents -/

section Exponents

variable {s : List Char} {e : ℤ}

theorem readExponent?_eq_some_iff :
    readExponent? s = some e ↔ ∃ sign negative digits, IsSign sign negative ∧ digits ≠ [] ∧
      AreDigits digits ∧ s = sign ++ digits ∧ e = signed negative (valueOf digits : ℤ) := by
  have hread : readExponent? s = some e ↔ (takeSign s).2 ≠ [] ∧ AreDigits (takeSign s).2 ∧
      signed (takeSign s).1 (valueOf (takeSign s).2 : ℤ) = e := by
    simp only [readExponent?, Option.ite_none_left_eq_some, Option.some.injEq, Bool.or_eq_true,
      Bool.not_eq_true', not_or, List.isEmpty_iff, Bool.not_eq_false, List.all_eq_true, and_assoc,
      ne_eq, AreDigits, signed]
  rw [hread]
  constructor
  · rintro ⟨hne, hdigits, rfl⟩
    obtain ⟨sign, hs, hsign⟩ := isSign_takeSign s
    exact ⟨sign, _, _, hsign, hne, hdigits, hs, rfl⟩
  · rintro ⟨sign, negative, digits, hsign, hne, hdigits, rfl, rfl⟩
    rw [takeSign_append hsign hdigits.head_ne]
    exact ⟨hne, hdigits, rfl⟩

theorem exponentPart?_eq_some_iff : exponentPart? s = some e ↔ IsExponent s e := by
  cases s with
  | nil =>
    rw [exponentPart?, Option.some.injEq]
    constructor
    · rintro rfl
      exact .none
    · intro h
      cases h
      rfl
  | cons c s =>
    simp only [exponentPart?, Option.ite_none_right_eq_some, Bool.or_eq_true, decide_eq_true_eq,
      readExponent?_eq_some_iff]
    constructor
    · rintro ⟨hmark, sign, negative, digits, hsign, hne, hdigits, rfl, rfl⟩
      exact .power hmark hsign hne hdigits
    · intro h
      cases h with
      | power hmark hsign hne hdigits => exact ⟨hmark, _, _, _, hsign, hne, hdigits, rfl, rfl⟩

/-- An exponent does not go on with the digits before it. -/
theorem IsExponent.head_ne (h : IsExponent s e) :
    ∀ c ∈ s.head?, c.isDigit = false ∧ c ≠ '.' := by
  cases h with
  | none => simp
  | power hmark =>
    intro c hc
    obtain rfl : _ = c := Option.some.inj hc
    rcases hmark with rfl | rfl <;> decide

end Exponents

/-! ## Digits with a point -/

section Mantissas

variable {s mantissa whole fraction rest : List Char} {m : ℚ}

theorem mantissa_eq (whole fraction : List Char) :
    ((valueOf (whole ++ fraction) : ℕ) : ℚ) / 10 ^ fraction.length =
      valueOf whole + valueOf fraction / 10 ^ fraction.length := by
  rw [valueOf_append]
  push_cast
  field_simp

/-- What is taken for the digits before and behind the point spells a mantissa. -/
theorem isMantissa_of_takeFraction
    (htake : takeFraction (s.dropWhile Char.isDigit) = (fraction, rest))
    (hne : s.takeWhile Char.isDigit ++ fraction ≠ []) :
    ∃ mantissa, s = mantissa ++ rest ∧ IsMantissa mantissa
      ((valueOf (s.takeWhile Char.isDigit ++ fraction) : ℕ) / 10 ^ fraction.length) := by
  have hsplit := List.takeWhile_append_dropWhile (p := Char.isDigit) (l := s)
  have hwhole := areDigits_takeWhile s
  rw [mantissa_eq]
  unfold takeFraction at htake
  split at htake
  case h_1 tail hpoint =>
    obtain ⟨rfl, rfl⟩ := Prod.mk.inj htake
    refine ⟨_, ?_, .point hne hwhole (areDigits_takeWhile tail)⟩
    rw [List.append_assoc, List.cons_append, List.takeWhile_append_dropWhile, ← hpoint, hsplit]
  case h_2 =>
    obtain ⟨rfl, rfl⟩ := Prod.mk.inj htake
    rw [List.append_nil] at hne
    refine ⟨_, hsplit.symm, ?_⟩
    have hvalue := IsMantissa.whole hne hwhole
    simpa [valueOf] using hvalue

/-- A mantissa is taken as a whole, if what follows does not go on with it. -/
theorem IsMantissa.takeFraction_append (h : IsMantissa mantissa m)
    (hrest : ∀ c ∈ rest.head?, c.isDigit = false ∧ c ≠ '.') :
    ∃ fraction, takeFraction ((mantissa ++ rest).dropWhile Char.isDigit) = (fraction, rest) ∧
      (mantissa ++ rest).takeWhile Char.isDigit ++ fraction ≠ [] ∧
      ((valueOf ((mantissa ++ rest).takeWhile Char.isDigit ++ fraction) : ℕ) : ℚ) /
        10 ^ fraction.length = m := by
  simp only [mantissa_eq]
  cases h with
  | whole hne hdigits =>
    obtain ⟨htake, hdrop⟩ := span_digits hdigits fun c hc => (hrest c hc).1
    rw [htake, hdrop]
    refine ⟨[], ?_, by simpa using hne, by simp [valueOf]⟩
    unfold takeFraction
    split
    · exact absurd rfl (hrest '.' rfl).2
    · rfl
  | @point whole fraction hne hwhole hfraction =>
    rw [List.append_assoc, List.cons_append]
    have hpoint : ∀ c ∈ ('.' :: (fraction ++ rest)).head?, c.isDigit = false := by simp
    obtain ⟨htake, hdrop⟩ := span_digits hwhole hpoint
    obtain ⟨htake', hdrop'⟩ := span_digits hfraction fun c hc => (hrest c hc).1
    rw [htake, hdrop, takeFraction, htake', hdrop']
    exact ⟨fraction, rfl, hne, rfl⟩

theorem IsMantissa.ne_nil (h : IsMantissa mantissa m) : mantissa ≠ [] := by
  cases h with
  | whole hne => exact hne
  | point => exact List.append_ne_nil_of_right_ne_nil _ (List.cons_ne_nil _ _)

theorem IsMantissa.forall_mem (h : IsMantissa mantissa m) {P : Char → Prop}
    (hdigit : ∀ c : Char, c.isDigit = true → P c) (hpoint : P '.') : ∀ c ∈ mantissa, P c := by
  cases h with
  | whole hne hdigits => exact fun c hc => hdigit c (hdigits c hc)
  | point hne hwhole hfraction =>
    refine List.forall_mem_append.mpr ⟨?_, List.forall_mem_cons.mpr ⟨hpoint, ?_⟩⟩
    · exact fun c hc => hdigit c (hwhole c hc)
    · exact fun c hc => hdigit c (hfraction c hc)

theorem IsMantissa.head_ne (h : IsMantissa mantissa m) (rest : List Char) :
    ∀ c ∈ (mantissa ++ rest).head?, c ≠ '-' ∧ c ≠ '+' := by
  intro c hc
  rw [List.head?_append_of_ne_nil _ h.ne_nil] at hc
  exact h.forall_mem (P := fun c => c ≠ '-' ∧ c ≠ '+') (fun _ => ne_sign_of_isDigit) (by decide) c
    (List.mem_of_head? hc)

end Mantissas

/-! ## Literals -/

section Literals

variable {s : List Char} {v : ℚ}

theorem read?_eq_some_iff {l : Literal} :
    Literal.read? s = some l ↔ ∃ fraction rest e,
      takeFraction ((takeSign s).2.dropWhile Char.isDigit) = (fraction, rest) ∧
        (takeSign s).2.takeWhile Char.isDigit ++ fraction ≠ [] ∧ exponentPart? rest = some e ∧
        l = ⟨(takeSign s).1, valueOf ((takeSign s).2.takeWhile Char.isDigit ++ fraction),
          e - fraction.length⟩ := by
  rw [Literal.read?]
  obtain ⟨negative, t⟩ := takeSign s
  rcases htake : takeFraction (t.dropWhile Char.isDigit) with ⟨fraction, rest⟩
  simp only [htake, Option.ite_none_left_eq_some]
  constructor
  · rintro ⟨hne, hread⟩
    cases he : exponentPart? rest with
    | none => simp [he] at hread
    | some e =>
      rw [he] at hread
      exact ⟨fraction, rest, e, rfl, by simpa using hne, he, (Option.some.inj hread).symm⟩
  · rintro ⟨_, _, e, hsame, hne, he, rfl⟩
    obtain ⟨rfl, rfl⟩ := Prod.mk.inj hsame
    rw [he]
    exact ⟨by simpa using hne, rfl⟩

theorem ten_zpow_sub (x : ℚ) (e : ℤ) (k : ℕ) : x * 10 ^ (e - k) = x / 10 ^ k * 10 ^ e := by
  rw [zpow_sub₀ (by norm_num), zpow_natCast]
  ring

/-- **A literal is read exactly from the texts that are literals, with the value they denote.** -/
theorem read?_iff : (∃ l, Literal.read? s = some l ∧ l.value = v) ↔ IsLiteral s v := by
  simp only [read?_eq_some_iff]
  constructor
  · rintro ⟨_, ⟨fraction, rest, e, htake, hne, hexponent, rfl⟩, rfl⟩
    obtain ⟨sign, hs, hsign⟩ := isSign_takeSign s
    obtain ⟨mantissa, ht, hmantissa⟩ := isMantissa_of_takeFraction htake hne
    refine ⟨sign, _, mantissa, _, rest, e, hsign, hmantissa, exponentPart?_eq_some_iff.mp hexponent,
      ?_, ?_⟩
    · rw [List.append_assoc, ← ht, ← hs]
    · rw [Literal.value, Literal.size, ten_zpow_sub]
  · rintro ⟨sign, negative, mantissa, m, exponent, e, hsign, hmantissa, hexponent, rfl, rfl⟩
    obtain ⟨fraction, htake, hne, hm⟩ := hmantissa.takeFraction_append hexponent.head_ne
    rw [List.append_assoc, takeSign_append hsign (hmantissa.head_ne exponent)]
    have hread := exponentPart?_eq_some_iff.mpr hexponent
    refine ⟨_, ⟨fraction, exponent, e, htake, hne, hread, rfl⟩, ?_⟩
    rw [Literal.value, Literal.size, ten_zpow_sub, hm]

theorem IsMantissa.isLiteral (h : IsMantissa s v) : IsLiteral s v :=
  ⟨[], false, s, v, [], 0, .none, h, .none, by simp, by simp [signed]⟩

/-- A text has one value at most. -/
theorem IsLiteral.unique {w : ℚ} (h : IsLiteral s v) (h' : IsLiteral s w) : v = w := by
  obtain ⟨l, hread, rfl⟩ := read?_iff.mpr h
  obtain ⟨l', hread', rfl⟩ := read?_iff.mpr h'
  rw [Option.some.inj (hread.symm.trans hread')]

theorem IsSign.isBlank {sign : List Char} {negative : Bool} (h : IsSign sign negative) :
    ∀ c ∈ sign, Text.isBlank c = false := by
  cases h with
  | none => simp
  | plus => exact List.forall_mem_singleton.mpr (by decide)
  | minus => exact List.forall_mem_singleton.mpr (by decide)

theorem AreDigits.isBlank {digits : List Char} (h : AreDigits digits) :
    ∀ c ∈ digits, Text.isBlank c = false := fun c hc => (Capacity.of_isDigit (h c hc)).1

theorem IsExponent.isBlank {e : ℤ} (h : IsExponent s e) : ∀ c ∈ s, Text.isBlank c = false := by
  cases h with
  | none => simp
  | power hmark hsign hne hdigits =>
    have hinteger := List.forall_mem_append.mpr ⟨hsign.isBlank, hdigits.isBlank⟩
    refine List.forall_mem_cons.mpr ⟨?_, hinteger⟩
    rcases hmark with rfl | rfl <;> decide

theorem IsLiteral.isTrimmed (h : IsLiteral s v) : Text.IsTrimmed s := by
  obtain ⟨sign, negative, mantissa, m, exponent, e, hsign, hmantissa, hexponent, rfl, -⟩ := h
  refine Text.isTrimmed_of_no_blank (List.forall_mem_append.mpr ⟨List.forall_mem_append.mpr
    ⟨hsign.isBlank, ?_⟩, hexponent.isBlank⟩)
  exact hmantissa.forall_mem (fun c hdigit => (Capacity.of_isDigit hdigit).1) (by decide)

end Literals

end Admission.Decimal
