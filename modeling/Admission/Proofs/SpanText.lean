import Admission.Decimal.Numeral
import Admission.Proofs.QuotedText
import Admission.Span
import Mathlib.Data.List.TakeWhile

/-!
# A span is told by its text

Spans are written in four units, and the zeros at the end of a fraction are left out. Neither loses
anything:

> the digits end where the unit begins, the unit says how many places the fraction has, and only
> zeros are missing from it.

So two spans with one text are one span (`Span.chars_injective`), although one of them might have
been written in seconds and the other in nanoseconds.
-/

set_option autoImplicit false

namespace Admission.Span

open Admission.Text

theorem toDigits_injective : Function.Injective (Nat.toDigits 10) := fun m n h => by
  rw [← Decimal.valueOf_toDigits m, h, Decimal.valueOf_toDigits]

/-! ## Fractions -/

theorem valueOf_paddedDigits (width n : Nat) : Decimal.valueOf (paddedDigits width n) = n := by
  have hzeros : ∀ (k : Nat) (s : List Char),
      Decimal.valueOf (List.replicate k '0' ++ s) = Decimal.valueOf s := by
    intro k s
    induction k with
    | zero => rfl
    | succ k ih => exact ih
  rw [paddedDigits, hzeros, Decimal.valueOf_toDigits]

theorem length_paddedDigits {places n : Nat} (h : n < 10 ^ places) :
    (paddedDigits places n).length = max places 1 := by
  rw [paddedDigits, List.length_append, List.length_replicate]
  cases places with
  | zero =>
    obtain rfl := Nat.lt_one_iff.mp h
    rfl
  | succ places =>
    have hle := (Nat.length_toDigits_le_iff (by decide) (Nat.succ_pos places)).mpr h
    omega

/-- What is left out at the end are zeros. -/
theorem exists_append_zeros (s : List Char) :
    ∃ k, s = dropTrailingZeros s ++ List.replicate k '0' := by
  have hsplit := List.takeWhile_append_dropWhile (p := (· == '0')) (l := s.reverse)
  have hzeros : s.reverse.takeWhile (· == '0') =
      List.replicate (s.reverse.takeWhile (· == '0')).length '0' :=
    List.eq_replicate_of_mem fun c hc => by simpa using List.mem_takeWhile_imp hc
  refine ⟨(s.reverse.takeWhile (· == '0')).length, ?_⟩
  rw [dropTrailingZeros, ← List.reverse_replicate, ← hzeros, ← List.reverse_append, hsplit,
    List.reverse_reverse]

/-- The digits of the fraction that is left when `n` is counted in a unit of so many places. -/
def fraction (n places : Nat) : List Char :=
  dropTrailingZeros (paddedDigits places (n % Nat.pow 10 places))

theorem mod_eq_of_fraction_eq {m n places : Nat} (h : fraction m places = fraction n places) :
    m % 10 ^ places = n % 10 ^ places := by
  have hlength : ∀ k, (paddedDigits places (k % 10 ^ places)).length = max places 1 := fun k =>
    length_paddedDigits (Nat.mod_lt k (Nat.pow_pos (by decide)))
  obtain ⟨j, hj⟩ := exists_append_zeros (paddedDigits places (m % 10 ^ places))
  obtain ⟨k, hk⟩ := exists_append_zeros (paddedDigits places (n % 10 ^ places))
  have hfraction : dropTrailingZeros (paddedDigits places (m % 10 ^ places)) =
      dropTrailingZeros (paddedDigits places (n % 10 ^ places)) := h
  have hjk : j = k := by
    have hm := congrArg List.length hj
    have hn := congrArg List.length hk
    rw [hlength, List.length_append, List.length_replicate] at hm hn
    rw [hfraction] at hm
    omega
  rw [← valueOf_paddedDigits places (m % 10 ^ places), hj, hfraction, hjk, ← hk,
    valueOf_paddedDigits]

theorem isDigit_of_mem_fraction {n places : Nat} {c : Char} (h : c ∈ fraction n places) :
    c.isDigit = true := by
  obtain ⟨k, hk⟩ := exists_append_zeros (paddedDigits places (n % 10 ^ places))
  have hpadded : c ∈ paddedDigits places (n % 10 ^ places) := by
    rw [hk]
    exact List.mem_append_left _ h
  rcases List.mem_append.mp hpadded with hzero | hdigit
  · rw [List.eq_of_mem_replicate hzero]
    rfl
  · exact Nat.isDigit_of_mem_toDigits (by decide) (by decide) hdigit

/-! ## Units -/

/-- The units: how many decimal places there are to a nanosecond, and the sign. -/
def units : List (Nat × List Char) :=
  [(9, ['s']), (6, ['m', 's']), (3, ['µ', 's']), (0, ['n', 's'])]

theorem head_of_units : ∀ q ∈ units, ∀ c ∈ q.2.head?, c.isDigit = false ∧ c ≠ '.' := by
  simp [units]

theorem eq_of_units : ∀ q ∈ units, ∀ r ∈ units, q.2 = r.2 → q = r := by decide

theorem isShown_of_units : ∀ q ∈ units, ∀ c ∈ q.2, isShown c = true ∧ c ≠ ' ' := by
  intro q hq
  refine shown_of_all ?_
  revert q
  decide +kernel

/-- What stands behind the whole number: a point and the fraction, if there is one, and the unit. -/
def behindPoint (n : Nat) (q : Nat × List Char) : List Char :=
  if fraction n q.1 = [] then q.2 else '.' :: (fraction n q.1 ++ q.2)

theorem inUnit_eq (n : Nat) (q : Nat × List Char) :
    inUnit n q.1 q.2 = Nat.toDigits 10 (n / 10 ^ q.1) ++ behindPoint n q := by
  rw [inUnit, behindPoint, ← fraction]
  by_cases h : fraction n q.1 = []
  · simp [h]
  · simp [h]

theorem head_behindPoint {n : Nat} {q : Nat × List Char} (hq : q ∈ units) :
    ∀ c ∈ (behindPoint n q).head?, c.isDigit = false := by
  intro c hc
  rw [behindPoint] at hc
  split at hc
  · exact (head_of_units q hq c hc).1
  · obtain rfl := Option.some.inj hc
    rfl

theorem behindPoint_inj {m n : Nat} {q r : Nat × List Char} (hq : q ∈ units) (hr : r ∈ units)
    (h : behindPoint m q = behindPoint n r) : q = r ∧ fraction m q.1 = fraction n r.1 := by
  have hunit : ∀ {k : Nat} {p p' : Nat × List Char}, p ∈ units →
      p.2 ≠ '.' :: (fraction k p'.1 ++ p'.2) := by
    intro k p p' hp heq
    exact (head_of_units p hp '.' (by rw [heq]; rfl)).2 rfl
  unfold behindPoint at h
  split_ifs at h with hm hn hn
  · exact ⟨eq_of_units q hq r hr h, hm.trans hn.symm⟩
  · exact absurd h (hunit hq)
  · exact absurd h.symm (hunit hr)
  · have hhead : ∀ {p : Nat × List Char}, p ∈ units → ∀ c ∈ p.2.head?, c.isDigit = false :=
      fun hp c hc => (head_of_units _ hp c hc).1
    obtain ⟨hfraction, hsign⟩ := append_inj_of_class (fun _ => isDigit_of_mem_fraction)
      (fun _ => isDigit_of_mem_fraction) (hhead hq) (hhead hr) (List.cons.inj h).2
    exact ⟨eq_of_units q hq r hr hsign, hfraction⟩

theorem inUnit_inj {m n : Nat} {q r : Nat × List Char} (hq : q ∈ units) (hr : r ∈ units)
    (h : inUnit m q.1 q.2 = inUnit n r.1 r.2) : m = n := by
  rw [inUnit_eq, inUnit_eq] at h
  have hdigits : ∀ k, ∀ c ∈ Nat.toDigits 10 k, c.isDigit = true := fun k c hc =>
    Nat.isDigit_of_mem_toDigits (by decide) (by decide) hc
  obtain ⟨hwhole, hrest⟩ := append_inj_of_class (hdigits _) (hdigits _) (head_behindPoint hq)
    (head_behindPoint hr) h
  obtain ⟨rfl, hfraction⟩ := behindPoint_inj hq hr hrest
  rw [← Nat.div_add_mod m (10 ^ q.1), ← Nat.div_add_mod n (10 ^ q.1), toDigits_injective hwhole,
    mod_eq_of_fraction_eq hfraction]

/-! ## Spans -/

/-- Also nanoseconds are counted in a unit, with no places. -/
theorem chars_eq_inUnit (s : Span) : ∃ q ∈ units, s.chars = inUnit s.nanos q.1 q.2 := by
  unfold chars
  split_ifs
  · exact ⟨(9, ['s']), by decide, rfl⟩
  · exact ⟨(6, ['m', 's']), by decide, rfl⟩
  · exact ⟨(3, ['µ', 's']), by decide, rfl⟩
  · refine ⟨(0, ['n', 's']), by decide, ?_⟩
    have hfraction : fraction s.nanos 0 = [] := by
      rw [fraction, show s.nanos % Nat.pow 10 0 = 0 from Nat.mod_one _]
      decide
    rw [inUnit_eq, behindPoint, if_pos hfraction, Nat.pow_zero, Nat.div_one]

/-- **A span is told by its text.** -/
theorem chars_injective : Function.Injective chars := by
  intro s t h
  obtain ⟨q, hq, hs⟩ := chars_eq_inUnit s
  obtain ⟨r, hr, ht⟩ := chars_eq_inUnit t
  rw [hs, ht] at h
  cases s
  cases t
  exact congrArg Span.mk (inUnit_inj hq hr h)

theorem exists_digit_cons (s : Span) : ∃ d rest, s.chars = d :: rest ∧ d.isDigit = true := by
  obtain ⟨q, -, hs⟩ := chars_eq_inUnit s
  rw [hs, inUnit_eq]
  cases hdigits : Nat.toDigits 10 (s.nanos / 10 ^ q.1) with
  | nil => exact absurd hdigits Nat.toDigits_ne_nil
  | cons d rest =>
    refine ⟨d, rest ++ behindPoint s.nanos q, rfl, ?_⟩
    exact Nat.isDigit_of_mem_toDigits (b := 10) (n := s.nanos / 10 ^ q.1) (by decide) (by decide)
      (by rw [hdigits]; exact List.mem_cons_self)

/-- The text of a span is drawn as it is, and has no space in it. -/
theorem isShown_of_mem_chars {s : Span} {c : Char} (h : c ∈ s.chars) :
    isShown c = true ∧ c ≠ ' ' := by
  have hdigit : ∀ {c : Char}, c.isDigit = true → isShown c = true ∧ c ≠ ' ' := by
    intro c hc
    refine ⟨?_, fun heq => ?_⟩
    · simp only [Char.isDigit, Bool.and_eq_true, decide_eq_true_eq, ge_iff_le,
        UInt32.le_iff_toNat_le, Char.toNat_val] at hc
      have hlow : 48 ≤ c.toNat := hc.1
      have hhigh : c.toNat ≤ 57 := hc.2
      simp only [isShown]
      rw [if_pos (by omega), Bool.and_eq_true, decide_eq_true_eq, decide_eq_true_eq]
      omega
    · rw [heq] at hc
      cases hc
  obtain ⟨q, hq, hs⟩ := chars_eq_inUnit s
  rw [hs, inUnit_eq, behindPoint] at h
  rcases List.mem_append.mp h with h | h
  · exact hdigit (Nat.isDigit_of_mem_toDigits (by decide) (by decide) h)
  · split at h
    · exact isShown_of_units q hq c h
    · rcases List.mem_cons.mp h with rfl | h
      · decide
      · rcases List.mem_append.mp h with h | h
        · exact hdigit (isDigit_of_mem_fraction h)
        · exact isShown_of_units q hq c h

end Admission.Span
