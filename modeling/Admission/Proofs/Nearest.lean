import Admission.Decimal.Binary64
import Mathlib.Algebra.Order.Field.Power
import Mathlib.Data.Rat.Floor
import Mathlib.Tactic.FieldSimp
import Mathlib.Tactic.Linarith
import Mathlib.Tactic.Positivity

/-!
# Rounding keeps the order

A literal is rounded twice, to a floating-point number and to a whole number of nanoseconds, and the
two roundings have little in common but that each takes the nearest number of a set. That is all one
has to know about them:

> where two numbers are taken in the wrong order, the middle between the numbers taken lies below
> the first and above the second; so the two were one, and one number is rounded in one way.

Hence what is taken keeps the order (`IsNearest.mono`), whatever the set is. The sets are those of
the whole numbers (`isNearest_roundDiv`) and of the floating-point numbers (`isNearest_nearest`).
-/

set_option autoImplicit false

namespace Admission.Decimal

/-! ## The nearest number of a set -/

/-- `x` is a number of the set, and none is nearer to `v`. -/
def IsNearest (s : Set ℚ) (v x : ℚ) : Prop := x ∈ s ∧ ∀ y ∈ s, |v - x| ≤ |v - y|

section Sets

variable {s : Set ℚ} {v w x y : ℚ}

/-- What is not nearer to the lower of two numbers lies in the upper half between them, and the
other way round. -/
theorem add_le_two_mul (hlt : y < x) (h : |v - x| ≤ |v - y|) : x + y ≤ 2 * v := by
  rcases abs_cases (v - x) with ⟨hx, hx'⟩ | ⟨hx, hx'⟩ <;>
    rcases abs_cases (v - y) with ⟨hy, hy'⟩ | ⟨hy, hy'⟩ <;> linarith

theorem two_mul_le_add (hlt : y < x) (h : |v - y| ≤ |v - x|) : 2 * v ≤ x + y := by
  rcases abs_cases (v - x) with ⟨hx, hx'⟩ | ⟨hx, hx'⟩ <;>
    rcases abs_cases (v - y) with ⟨hy, hy'⟩ | ⟨hy, hy'⟩ <;> linarith

theorem IsNearest.mono (hx : IsNearest s v x) (hy : IsNearest s w y) (hle : v ≤ w)
    (heq : v = w → x = y) : x ≤ y := by
  by_contra hnot
  have hlt : y < x := lt_of_not_ge hnot
  have hv : x + y ≤ 2 * v := add_le_two_mul hlt (hx.2 y hy.1)
  have hw : 2 * w ≤ x + y := two_mul_le_add hlt (hy.2 x hx.1)
  have hvw : v = w := by linarith
  exact hlt.ne' (heq hvw)

theorem IsNearest.le_of_mem (hx : IsNearest s v x) (hy : y ∈ s) (hle : v ≤ y) : x ≤ y := by
  by_contra hnot
  have hlt : y < x := lt_of_not_ge hnot
  have hhalf := add_le_two_mul hlt (hx.2 y hy)
  linarith

theorem IsNearest.ge_of_mem (hx : IsNearest s v x) (hy : y ∈ s) (hle : y ≤ v) : y ≤ x := by
  by_contra hnot
  have hlt : x < y := lt_of_not_ge hnot
  have hhalf := two_mul_le_add hlt (hx.2 y hy)
  linarith

end Sets

/-! ## Whole numbers -/

/-- The whole numbers. -/
def wholes : Set ℚ := Set.range ((↑) : ℕ → ℚ)

section Whole

variable {n d n' d' : ℕ}

theorem roundDiv_cases (n d : ℕ) :
    (roundDiv n d = n / d ∧ 2 * (n % d) ≤ d) ∨ (roundDiv n d = n / d + 1 ∧ d ≤ 2 * (n % d)) := by
  unfold roundDiv
  dsimp only
  split
  case isTrue hlt => exact Or.inl ⟨rfl, hlt.le⟩
  case isFalse hge =>
    split
    case isTrue hgt => exact Or.inr ⟨rfl, hgt.le⟩
    case isFalse hle =>
      split
      · exact Or.inl ⟨rfl, by omega⟩
      · exact Or.inr ⟨rfl, by omega⟩

theorem abs_sub_roundDiv_le (hd : 0 < d) : |(n / d : ℚ) - roundDiv n d| ≤ 1 / 2 := by
  have hd' : (0 : ℚ) < d := by exact_mod_cast hd
  have hsplit : (n : ℚ) = d * (n / d : ℕ) + (n % d : ℕ) := by
    exact_mod_cast (Nat.div_add_mod n d).symm
  have hquotient : (n / d : ℚ) = (n / d : ℕ) + (n % d : ℕ) / d := by
    rw [hsplit]
    field_simp
  have hr : (0 : ℚ) ≤ (n % d : ℕ) / d := by positivity
  rw [hquotient, abs_le]
  rcases roundDiv_cases n d with ⟨hround, hhalf⟩ | ⟨hround, hhalf⟩
  · have hle : ((n % d : ℕ) : ℚ) / d ≤ 1 / 2 := by
      rw [div_le_div_iff₀ hd' two_pos]
      exact_mod_cast by omega
    rw [hround]
    constructor <;> linarith
  · have hle : (1 : ℚ) / 2 ≤ (n % d : ℕ) / d := by
      rw [div_le_div_iff₀ two_pos hd']
      exact_mod_cast by omega
    have hlt : ((n % d : ℕ) : ℚ) / d < 1 := by
      rw [div_lt_one hd']
      exact_mod_cast Nat.mod_lt n hd
    rw [hround]
    push_cast
    constructor <;> linarith

/-- **A quotient is rounded to the nearest whole number.** -/
theorem isNearest_roundDiv (hd : 0 < d) : IsNearest wholes (n / d) (roundDiv n d) := by
  refine ⟨⟨_, rfl⟩, ?_⟩
  rintro _ ⟨k, rfl⟩
  have hhalf := abs_sub_roundDiv_le (n := n) hd
  by_cases hk : k = roundDiv n d
  · rw [hk]
  · -- Another whole number is at least one away, so at least a half from the quotient.
    have hone : (1 : ℚ) ≤ |(roundDiv n d : ℚ) - k| := by
      have hint : (1 : ℤ) ≤ |(roundDiv n d : ℤ) - k| := Int.one_le_abs (by omega)
      exact_mod_cast hint
    have htriangle := abs_sub_le (roundDiv n d : ℚ) (n / d) k
    rw [abs_sub_comm (roundDiv n d : ℚ) (n / d)] at htriangle
    linarith

theorem roundDiv_mul_right {c : ℕ} (hc : 0 < c) (n d : ℕ) :
    roundDiv (n * c) (d * c) = roundDiv n d := by
  have htwice : 2 * (n % d * c) = 2 * (n % d) * c := by ring
  simp only [roundDiv, Nat.mul_div_mul_right _ _ hc, Nat.mul_mod_mul_right, htwice,
    Nat.mul_lt_mul_right hc]

/-- **What is rounded is the quotient**, not how it is written. -/
theorem roundDiv_congr (hd : 0 < d) (hd' : 0 < d') (h : n * d' = n' * d) :
    roundDiv n d = roundDiv n' d' := by
  rw [← roundDiv_mul_right hd', ← roundDiv_mul_right hd n', h, Nat.mul_comm d d']

theorem mul_eq_mul_of_div_eq (hd : 0 < d) (hd' : 0 < d') (h : (n / d : ℚ) = n' / d') :
    n * d' = n' * d := by
  have hd : (d : ℚ) ≠ 0 := by exact_mod_cast hd.ne'
  have hd' : (d' : ℚ) ≠ 0 := by exact_mod_cast hd'.ne'
  rw [div_eq_div_iff hd hd'] at h
  exact_mod_cast h

theorem roundDiv_mono (hd : 0 < d) (hd' : 0 < d') (h : (n / d : ℚ) ≤ n' / d') :
    roundDiv n d ≤ roundDiv n' d' := by
  have hle : (roundDiv n d : ℚ) ≤ roundDiv n' d' :=
    (isNearest_roundDiv hd).mono (isNearest_roundDiv hd') h fun heq => by
      rw [roundDiv_congr hd hd' (mul_eq_mul_of_div_eq hd hd' heq)]
  exact_mod_cast hle

/-- What is not above a half becomes nothing: a half lies between nothing and one, and nothing is
even. -/
theorem roundDiv_eq_zero_iff (hd : 0 < d) : roundDiv n d = 0 ↔ (n / d : ℚ) ≤ 1 / 2 := by
  have hhalf : roundDiv n d = 0 ↔ 2 * n ≤ d := by
    by_cases hlt : n < d
    · rw [roundDiv, Nat.div_eq_of_lt hlt, Nat.mod_eq_of_lt hlt, Nat.zero_mod, if_pos rfl]
      split_ifs with hlow hhigh
      · exact iff_of_true rfl hlow.le
      · exact iff_of_false (by simp) (not_le.mpr hhigh)
      · exact iff_of_true rfl (not_lt.mp hhigh)
    · have hsplit := Nat.div_add_mod n d
      have hpos : 1 ≤ n / d := Nat.div_pos (not_lt.mp hlt) hd
      rcases roundDiv_cases n d with ⟨hround, -⟩ | ⟨hround, -⟩ <;> omega
  have hd' : (0 : ℚ) < d := by exact_mod_cast hd
  rw [hhalf, div_le_div_iff₀ hd' two_pos, one_mul, mul_comm (n : ℚ)]
  exact_mod_cast Iff.rfl

end Whole

/-! ## Powers of two -/

section Powers

variable {n d : ℕ} {e : ℤ}

theorem powerAbove_pos (e : ℤ) : 0 < powerAbove e := Nat.pow_pos two_pos

theorem powerBelow_pos (e : ℤ) : 0 < powerBelow e := Nat.pow_pos two_pos

/-- A power with its exponent in the numerator or in the denominator. -/
theorem pow_toNat_div {b : ℕ} (hb : 0 < b) (e : ℤ) :
    ((Nat.pow b e.toNat : ℕ) / (Nat.pow b (-e).toNat : ℕ) : ℚ) = (b : ℚ) ^ e := by
  have hb : (b : ℚ) ≠ 0 := by exact_mod_cast hb.ne'
  have hexponent : e = (e.toNat : ℤ) - ((-e).toNat : ℤ) := by omega
  rw [Nat.pow_eq, Nat.pow_eq, Nat.cast_pow, Nat.cast_pow]
  conv_rhs => rw [hexponent]
  rw [zpow_sub₀ hb, zpow_natCast, zpow_natCast]

theorem powerAbove_div_powerBelow (e : ℤ) : (powerAbove e / powerBelow e : ℚ) = 2 ^ e := by
  have hpower := pow_toNat_div two_pos e
  rwa [Nat.cast_ofNat] at hpower

/-- A number of units of 2^e, with the power of two in the numerator or in the denominator. -/
theorem div_two_zpow (n d : ℕ) (e : ℤ) :
    ((n * powerBelow e : ℕ) / (d * powerAbove e : ℕ) : ℚ) = n / d / 2 ^ e := by
  push_cast
  rw [← powerAbove_div_powerBelow, div_div_div_eq, mul_comm (d : ℚ)]

theorem two_zpow_le_iff (hd : 0 < d) :
    d * powerAbove e ≤ n * powerBelow e ↔ (2 : ℚ) ^ e ≤ n / d := by
  have hd : (0 : ℚ) < d := by exact_mod_cast hd
  have hbelow : (0 : ℚ) < powerBelow e := by exact_mod_cast powerBelow_pos e
  rw [← powerAbove_div_powerBelow, div_le_div_iff₀ hbelow hd, mul_comm (powerAbove e : ℚ)]
  exact_mod_cast Iff.rfl

/-- **The quotient lies between two powers of two that follow each other.** -/
theorem binaryExponent_spec (hn : 0 < n) (hd : 0 < d) :
    (2 : ℚ) ^ binaryExponent n d ≤ n / d ∧ (n / d : ℚ) < 2 ^ (binaryExponent n d + 1) := by
  have hd' : (0 : ℚ) < d := by exact_mod_cast hd
  have hlow (k : ℕ) (hk : 0 < k) : (2 : ℚ) ^ (Nat.log2 k : ℤ) ≤ k := by
    exact_mod_cast Nat.log2_self_le hk.ne'
  have hhigh (k : ℕ) : (k : ℚ) < 2 ^ ((Nat.log2 k : ℤ) + 1) := by
    exact_mod_cast Nat.lt_log2_self
  rw [binaryExponent]
  split
  case isTrue hle =>
    refine ⟨(two_zpow_le_iff hd).mp hle, (div_lt_iff₀ hd').mpr ?_⟩
    calc (n : ℚ) < 2 ^ ((Nat.log2 n : ℤ) + 1) := hhigh n
      _ = 2 ^ ((Nat.log2 n : ℤ) - Nat.log2 d + 1) * 2 ^ (Nat.log2 d : ℤ) := by
        rw [← zpow_add₀ two_ne_zero]
        congr 1
        ring
      _ ≤ 2 ^ ((Nat.log2 n : ℤ) - Nat.log2 d + 1) * d :=
        mul_le_mul_of_nonneg_left (hlow d hd) (by positivity)
  case isFalse hnot =>
    rw [sub_add_cancel]
    refine ⟨(le_div_iff₀ hd').mpr ?_, lt_of_not_ge (hnot ∘ (two_zpow_le_iff hd).mpr)⟩
    calc (2 : ℚ) ^ ((Nat.log2 n : ℤ) - Nat.log2 d - 1) * d
        ≤ 2 ^ ((Nat.log2 n : ℤ) - Nat.log2 d - 1) * 2 ^ ((Nat.log2 d : ℤ) + 1) :=
          mul_le_mul_of_nonneg_left (hhigh d).le (by positivity)
      _ = 2 ^ (Nat.log2 n : ℤ) := by
        rw [← zpow_add₀ two_ne_zero]
        congr 1
        ring
      _ ≤ n := hlow n hn

end Powers

/-! ## Floating-point numbers -/

/-- The number that is meant. -/
def Dyadic.value (x : Dyadic) : ℚ := x.mantissa * 2 ^ x.exponent

/-- The floating-point numbers: fewer than 54 binary digits, counted in a power of two that is not
too small. -/
def floats : Set ℚ := {x | ∃ m : ℕ, ∃ e : ℤ, m < 2 ^ 53 ∧ leastExponent ≤ e ∧ x = m * 2 ^ e}

/-- The numbers about `v` are counted in units of 2^e: `v` is less than 2^53 of them, and it is as
many as 2^52 if a smaller unit was to be had. -/
structure IsUnit (v : ℚ) (e : ℤ) : Prop where
  least_le : leastExponent ≤ e
  lt : v < 2 ^ 53 * 2 ^ e
  le : e = leastExponent ∨ 2 ^ 52 * 2 ^ e ≤ v

section Floats

variable {n d n' d' : ℕ} {v y : ℚ} {e f : ℤ}

theorem two_pow_mul_zpow (k : ℕ) (e : ℤ) : (2 : ℚ) ^ k * 2 ^ e = 2 ^ (e + k) := by
  rw [zpow_add₀ two_ne_zero, zpow_natCast, mul_comm]

theorem IsUnit.unique (he : IsUnit v e) (hf : IsUnit v f) : e = f := by
  have hle {e f : ℤ} (he : IsUnit v e) (hf : IsUnit v f) : e ≤ f := by
    rcases he.le with rfl | hv
    · exact hf.least_le
    · have hlt := hv.trans_lt hf.lt
      rw [two_pow_mul_zpow, two_pow_mul_zpow, zpow_lt_zpow_iff_right₀ one_lt_two] at hlt
      omega
  exact le_antisymm (hle he hf) (hle hf he)

theorem nearest_eq (hn : 0 < n) (hd : 0 < d) :
    ∃ e, IsUnit (n / d) e ∧ nearest n d = ⟨roundDiv (n * powerBelow e) (d * powerAbove e), e⟩ := by
  obtain ⟨hlow, hhigh⟩ := binaryExponent_spec hn hd
  refine ⟨max (binaryExponent n d - 52) leastExponent, ⟨le_max_right _ _, ?_, ?_⟩, ?_⟩
  · rw [two_pow_mul_zpow]
    refine hhigh.trans_le (zpow_le_zpow_right₀ one_le_two ?_)
    have hle := le_max_left (binaryExponent n d - 52) leastExponent
    omega
  · rcases max_choice (binaryExponent n d - 52) leastExponent with hmax | hmax
    · rw [hmax, two_pow_mul_zpow, Nat.cast_ofNat, sub_add_cancel]
      exact Or.inr hlow
    · exact Or.inl hmax
  · rw [nearest, if_neg hn.ne']

/-- **What is rounded is the quotient**, not how it is written. -/
theorem nearest_congr (hd : 0 < d) (hd' : 0 < d') (h : (n / d : ℚ) = n' / d') :
    nearest n d = nearest n' d' := by
  have hmul : n * d' = n' * d := mul_eq_mul_of_div_eq hd hd' h
  have hzero : n = 0 ↔ n' = 0 := by
    constructor <;> rintro rfl <;> simpa [hd.ne', hd'.ne', eq_comm] using hmul
  by_cases hn : n = 0
  · rw [nearest, nearest, if_pos hn, if_pos (hzero.mp hn)]
  · have hn' : 0 < n' := Nat.pos_of_ne_zero (hn ∘ hzero.mpr)
    have hn : 0 < n := Nat.pos_of_ne_zero hn
    obtain ⟨e, he, hnearest⟩ := nearest_eq hn hd
    obtain ⟨f, hf, hnearest'⟩ := nearest_eq hn' hd'
    have hef : e = f := he.unique (h ▸ hf)
    subst hef
    rw [hnearest, hnearest', roundDiv_congr (Nat.mul_pos hd (powerAbove_pos e))
      (Nat.mul_pos hd' (powerAbove_pos e))]
    calc n * powerBelow e * (d' * powerAbove e) = n * d' * (powerBelow e * powerAbove e) := by ring
      _ = n' * powerBelow e * (d * powerAbove e) := by rw [hmul]; ring

theorem abs_sub_mul_two_zpow (v k : ℚ) (e : ℤ) : |v - k * 2 ^ e| = |v / 2 ^ e - k| * 2 ^ e := by
  have hpos : (0 : ℚ) < 2 ^ e := by positivity
  rw [← abs_of_pos hpos, ← abs_mul, abs_of_pos hpos, sub_mul, div_mul_cancel₀ _ hpos.ne']

theorem mul_two_zpow_mem_floats {k : ℕ} (hk : k ≤ 2 ^ 53) (he : leastExponent ≤ e) :
    (k : ℚ) * 2 ^ e ∈ floats := by
  rcases hk.lt_or_eq with hlt | rfl
  · exact ⟨k, e, hlt, he, rfl⟩
  · refine ⟨2 ^ 52, e + 1, by norm_num, by omega, ?_⟩
    rw [zpow_add_one₀ two_ne_zero]
    push_cast
    ring

/-- **The nearest whole number of units is the nearest floating-point number**: the numbers that
only a smaller unit has lie below the least number of 53 digits in this one. -/
theorem IsUnit.isNearest (he : IsUnit v e) {k : ℕ}
    (hk : IsNearest wholes (v / 2 ^ e) k) : IsNearest floats v (k * 2 ^ e) := by
  have hpos : (0 : ℚ) < 2 ^ e := by positivity
  have hunits (m : ℕ) : |v - k * 2 ^ e| ≤ |v - m * 2 ^ e| := by
    rw [abs_sub_mul_two_zpow, abs_sub_mul_two_zpow]
    exact mul_le_mul_of_nonneg_right (hk.2 m ⟨m, rfl⟩) hpos.le
  constructor
  · refine mul_two_zpow_mem_floats ?_ he.least_le
    have hle : v / 2 ^ e ≤ (2 ^ 53 : ℕ) := by
      rw [div_le_iff₀ hpos, Nat.cast_pow, Nat.cast_ofNat]
      exact he.lt.le
    exact_mod_cast hk.le_of_mem ⟨_, rfl⟩ hle
  · rintro _ ⟨m, f, hm, hf, rfl⟩
    by_cases hef : e ≤ f
    · obtain ⟨j, rfl⟩ := Int.le.dest hef
      have hfloat : (m : ℚ) * 2 ^ (e + j) = (m * 2 ^ j : ℕ) * 2 ^ e := by
        rw [← two_pow_mul_zpow]
        push_cast
        ring
      rw [hfloat]
      exact hunits (m * 2 ^ j)
    · have hleast : 2 ^ 52 * 2 ^ e ≤ v := he.le.resolve_left (by omega)
      have hbelow : (m : ℚ) * 2 ^ f ≤ 2 ^ 52 * 2 ^ e := by
        calc (m : ℚ) * 2 ^ f ≤ 2 ^ 53 * 2 ^ f := by
              gcongr
              exact_mod_cast hm.le
          _ ≤ 2 ^ 52 * 2 ^ e := by
              rw [two_pow_mul_zpow, two_pow_mul_zpow]
              exact zpow_le_zpow_right₀ one_le_two (by omega)
      calc |v - k * 2 ^ e| ≤ |v - 2 ^ 52 * 2 ^ e| := by
            have hunit := hunits (2 ^ 52)
            rwa [Nat.cast_pow, Nat.cast_ofNat] at hunit
        _ = v - 2 ^ 52 * 2 ^ e := abs_of_nonneg (by linarith)
        _ ≤ v - m * 2 ^ f := by linarith
        _ ≤ |v - m * 2 ^ f| := le_abs_self _

theorem isNearest_zero : IsNearest floats 0 0 := by
  refine ⟨⟨0, 0, by norm_num, by decide, by simp⟩, ?_⟩
  intro y _
  simp

theorem nearest_zero (d : ℕ) : nearest 0 d = ⟨0, 0⟩ := if_pos rfl

/-- **A quotient is rounded to the nearest floating-point number.** -/
theorem isNearest_nearest (hd : 0 < d) : IsNearest floats (n / d) (nearest n d).value := by
  rcases Nat.eq_zero_or_pos n with rfl | hn
  · simpa [nearest_zero, Dyadic.value] using isNearest_zero
  · obtain ⟨e, he, hnearest⟩ := nearest_eq hn hd
    rw [hnearest]
    refine he.isNearest ?_
    rw [← div_two_zpow]
    exact isNearest_roundDiv (Nat.mul_pos hd (powerAbove_pos e))

theorem nearest_mono (hd : 0 < d) (hd' : 0 < d') (h : (n / d : ℚ) ≤ n' / d') :
    (nearest n d).value ≤ (nearest n' d').value :=
  (isNearest_nearest hd).mono (isNearest_nearest hd') h fun heq => by
    rw [nearest_congr hd hd' heq]

/-- **The error is half a unit at most**, and a unit is small beside the number or the least one. -/
theorem abs_sub_nearest_le (hd : 0 < d) :
    |(n / d : ℚ) - (nearest n d).value| ≤ max (n / d : ℚ) (2 ^ (-1022 : ℤ)) / 2 ^ 53 := by
  rcases Nat.eq_zero_or_pos n with rfl | hn
  · simp [nearest_zero, Dyadic.value, div_nonneg]
  · obtain ⟨e, he, hnearest⟩ := nearest_eq hn hd
    have hhalf := abs_sub_roundDiv_le (n := n * powerBelow e) (Nat.mul_pos hd (powerAbove_pos e))
    rw [div_two_zpow] at hhalf
    have hunit : 2 ^ 52 * 2 ^ e ≤ max (n / d : ℚ) (2 ^ (-1022 : ℤ)) := by
      rcases he.le with rfl | hle
      · rw [two_pow_mul_zpow]
        exact le_max_right _ _
      · exact hle.trans (le_max_left _ _)
    rw [hnearest, Dyadic.value, abs_sub_mul_two_zpow, le_div_iff₀ (by positivity)]
    refine le_trans ?_ hunit
    calc |(n / d / 2 ^ e - roundDiv (n * powerBelow e) (d * powerAbove e) : ℚ)| * 2 ^ e * 2 ^ 53
        ≤ 1 / 2 * 2 ^ e * 2 ^ 53 := by gcongr
      _ = 2 ^ 52 * 2 ^ e := by ring

/-- **A number is lost if it is not above half of the least unit.** -/
theorem mantissa_nearest_eq_zero_iff (hd : 0 < d) :
    (nearest n d).mantissa = 0 ↔ (n / d : ℚ) ≤ 2 ^ (-1075 : ℤ) := by
  rcases Nat.eq_zero_or_pos n with rfl | hn
  · simp [nearest_zero]
  · obtain ⟨e, he, hnearest⟩ := nearest_eq hn hd
    have hhalf : (nearest n d).mantissa = 0 ↔ (n / d : ℚ) ≤ 2 ^ (e - 1) := by
      rw [hnearest, roundDiv_eq_zero_iff (Nat.mul_pos hd (powerAbove_pos e)), div_two_zpow,
        div_le_iff₀ (by positivity), zpow_sub_one₀ two_ne_zero, one_div, mul_comm]
    rw [hhalf]
    rcases he.le with rfl | hle
    · rfl
    · have hlt : (2 : ℚ) ^ (e - 1) < n / d := by
        rw [two_pow_mul_zpow] at hle
        exact (zpow_lt_zpow_right₀ one_lt_two (by omega)).trans_le hle
      have hleast : (2 : ℚ) ^ (leastExponent - 1) ≤ 2 ^ (e - 1) :=
        zpow_le_zpow_right₀ one_le_two (Int.sub_le_sub_right he.least_le 1)
      exact iff_of_false (not_le.mpr hlt) (not_le.mpr (hleast.trans_lt hlt))

end Floats

end Admission.Decimal
