import Admission.Decimal.Seconds
import Admission.Proofs.Literals
import Admission.Proofs.Nearest
import Admission.Proofs.SpanText

/-!
# Seconds, read as nanoseconds

Between the exact value of a literal and the nanoseconds that are read from it stand two roundings.
The shortcuts for enormous exponents turn out to change nothing (`Decimal.Literal.seconds?_eq`).
What the roundings leave of the value:

> each of them keeps the order, the first one goes wrong by less than half a nanosecond as long as
> there are fewer than 2^52 of them, and it takes a number for zero exactly if that is at most half
> of the least floating-point number.

So nanoseconds are read back and literals stay in order (`Settings.seconds_are_exact_and_in_order`).
The sign is looked at between the roundings, where a number that has become zero has none. That is
why negative seconds are refused with an exception
(`Settings.negative_seconds_are_refused_unless_they_vanish`).
-/

set_option autoImplicit false

namespace Admission

namespace Decimal

/-! ## The first rounding -/

theorem exists_digitCount {n : ℕ} (h : n ≠ 0) :
    ∃ k, digitCount n = k + 1 ∧ 10 ^ k ≤ n ∧ n < 10 ^ (k + 1) := by
  obtain ⟨k, hk⟩ : ∃ k, digitCount n = k + 1 :=
    Nat.exists_eq_succ_of_ne_zero Nat.length_toDigits_pos.ne'
  have hle (j : ℕ) : digitCount n ≤ j + 1 ↔ n < 10 ^ (j + 1) :=
    Nat.length_toDigits_le_iff (by decide) j.succ_pos
  refine ⟨k, hk, ?_, (hle k).mp hk.le⟩
  cases k with
  | zero => exact Nat.one_le_iff_ne_zero.mpr h
  | succ k =>
    by_contra hnot
    have hless := (hle k).mpr (not_le.mp hnot)
    omega

theorem ten_zpow_le_two_zpow : (10 : ℚ) ^ (-400 : ℤ) ≤ 2 ^ (-1075 : ℤ) := by
  rw [zpow_neg, zpow_neg, zpow_ofNat, zpow_ofNat]
  refine inv_anti₀ (by positivity) ?_
  calc (2 : ℚ) ^ 1075 ≤ 2 ^ (3 * 400) := pow_le_pow_right₀ one_le_two (by norm_num)
    _ = (2 ^ 3) ^ 400 := pow_mul 2 3 400
    _ ≤ 10 ^ 400 := pow_le_pow_left₀ (by norm_num) (by norm_num) 400

namespace Literal

variable {l l' : Literal}

theorem size_nonneg (l : Literal) : 0 ≤ l.size := by
  rw [size]
  positivity

theorem value_cases (l : Literal) :
    (l.negative = true ∧ l.value = -l.size) ∨ (l.negative = false ∧ l.value = l.size) := by
  rw [value, signed]
  cases l.negative <;> simp

theorem size_of_nonneg (h : 0 ≤ l.value) : l.size = l.value := by
  have hsize := l.size_nonneg
  rcases l.value_cases with ⟨-, hvalue⟩ | ⟨-, hvalue⟩ <;> linarith

theorem of_value_neg (h : l.value < 0) : l.negative = true ∧ l.size = -l.value := by
  have hsize := l.size_nonneg
  rcases l.value_cases with ⟨hnegative, hvalue⟩ | ⟨-, hvalue⟩
  · exact ⟨hnegative, by rw [hvalue, neg_neg]⟩
  · linarith

/-- A literal is the quotient that is rounded. -/
theorem quotient_eq_size (l : Literal) :
    ((l.mantissa * Nat.pow 10 l.exponent.toNat : ℕ) / (Nat.pow 10 (-l.exponent).toNat : ℕ) : ℚ) =
      l.size := by
  have hpower := pow_toNat_div (b := 10) (by decide) l.exponent
  rw [Nat.cast_ofNat] at hpower
  rw [Nat.cast_mul, mul_div_assoc, hpower, size]

theorem denominator_pos (l : Literal) : 0 < Nat.pow 10 (-l.exponent).toNat :=
  Nat.pow_pos (by decide)

theorem isNearest_toDyadic (l : Literal) : IsNearest floats l.size l.toDyadic.value := by
  rw [← quotient_eq_size]
  exact isNearest_nearest l.denominator_pos

theorem toDyadic_mono (h : l.size ≤ l'.size) : l.toDyadic.value ≤ l'.toDyadic.value := by
  rw [← quotient_eq_size, ← quotient_eq_size] at h
  exact nearest_mono l.denominator_pos l'.denominator_pos h

theorem abs_sub_toDyadic_le (l : Literal) :
    |l.size - l.toDyadic.value| ≤ max l.size (2 ^ (-1022 : ℤ)) / 2 ^ 53 := by
  rw [← quotient_eq_size]
  exact abs_sub_nearest_le l.denominator_pos

theorem mantissa_toDyadic_eq_zero_iff : l.toDyadic.mantissa = 0 ↔ l.size ≤ 2 ^ (-1075 : ℤ) := by
  rw [← quotient_eq_size]
  exact mantissa_nearest_eq_zero_iff l.denominator_pos

/-- The size lies below its bound, and not below a tenth of it. -/
theorem size_bounds (h : l.mantissa ≠ 0) :
    (10 : ℚ) ^ (l.magnitude - 1) ≤ l.size ∧ l.size < 10 ^ l.magnitude := by
  obtain ⟨k, hk, hlow, hhigh⟩ := exists_digitCount h
  have hpos : (0 : ℚ) < 10 ^ l.exponent := by positivity
  have hsplit (j : ℕ) : (10 : ℚ) ^ (j + l.exponent) = (10 ^ j : ℕ) * 10 ^ l.exponent := by
    rw [zpow_add₀ (by norm_num), zpow_natCast, Nat.cast_pow, Nat.cast_ofNat]
  have hmagnitude : l.magnitude = (k + 1 : ℕ) + l.exponent := by rw [magnitude, hk]
  have hbelow : l.magnitude - 1 = k + l.exponent := by
    rw [hmagnitude]
    push_cast
    ring
  rw [hbelow, hmagnitude, hsplit, hsplit, size]
  refine ⟨mul_le_mul_of_nonneg_right ?_ hpos.le, mul_lt_mul_of_pos_right ?_ hpos⟩
  · exact_mod_cast hlow
  · exact_mod_cast hhigh

/-- The literals that are not computed because they are too small would round to zero. -/
theorem mantissa_toDyadic_of_small (h : l.mantissa = 0 ∨ l.magnitude < -400) :
    l.toDyadic.mantissa = 0 := by
  refine mantissa_toDyadic_eq_zero_iff.mpr ?_
  by_cases hzero : l.mantissa = 0
  · rw [size, hzero, Nat.cast_zero, zero_mul]
    positivity
  · have hsmall : l.magnitude ≤ -400 := (h.resolve_left hzero).le
    calc l.size ≤ 10 ^ l.magnitude := (size_bounds hzero).2.le
      _ ≤ 10 ^ (-400 : ℤ) := zpow_le_zpow_right₀ (by norm_num) hsmall
      _ ≤ 2 ^ (-1075 : ℤ) := ten_zpow_le_two_zpow

/-- The literals that are not computed because they are too large would be refused. -/
theorem le_toDyadic_of_large (hzero : l.mantissa ≠ 0) (h : 24 < l.magnitude) :
    2 ^ 64 ≤ l.toDyadic.value := by
  have hmem : (2 : ℚ) ^ 64 ∈ floats := ⟨1, 64, by norm_num, by decide, by norm_num⟩
  refine l.isNearest_toDyadic.ge_of_mem hmem ?_
  calc (2 : ℚ) ^ 64 ≤ 10 ^ (24 : ℤ) := by norm_num
    _ ≤ 10 ^ (l.magnitude - 1) := zpow_le_zpow_right₀ (by norm_num) (by omega)
    _ ≤ l.size := (size_bounds hzero).1

end Literal

/-! ## The second rounding -/

namespace Dyadic

variable {x y : Dyadic}

theorem value_eq_div (x : Dyadic) :
    x.value = (x.mantissa * powerAbove x.exponent : ℕ) / (powerBelow x.exponent : ℕ) := by
  rw [value, ← powerAbove_div_powerBelow, Nat.cast_mul, mul_div_assoc]

theorem exceedsWord_iff : x.exceedsWord = true ↔ 2 ^ 64 ≤ x.value := by
  have hpos : (0 : ℚ) < powerBelow x.exponent := by exact_mod_cast powerBelow_pos x.exponent
  rw [exceedsWord, decide_eq_true_iff, value_eq_div, le_div_iff₀ hpos]
  exact_mod_cast Iff.rfl

theorem quotient_eq_value_mul (x : Dyadic) :
    ((x.mantissa * powerAbove x.exponent * Span.nanosPerSecond : ℕ) / powerBelow x.exponent : ℚ) =
      x.value * 10 ^ 9 := by
  rw [value_eq_div, Nat.cast_mul _ Span.nanosPerSecond, mul_div_right_comm]
  norm_num [Span.nanosPerSecond]

theorem secondsToNanos_mono (h : x.value ≤ y.value) : x.secondsToNanos ≤ y.secondsToNanos := by
  refine roundDiv_mono (powerBelow_pos _) (powerBelow_pos _) ?_
  rw [quotient_eq_value_mul, quotient_eq_value_mul]
  exact mul_le_mul_of_nonneg_right h (by norm_num)

theorem abs_sub_secondsToNanos_le (x : Dyadic) : |x.value * 10 ^ 9 - x.secondsToNanos| ≤ 1 / 2 := by
  rw [← quotient_eq_value_mul]
  exact abs_sub_roundDiv_le (powerBelow_pos _)

theorem secondsToNanos_of_mantissa (h : x.mantissa = 0) : x.secondsToNanos = 0 := by
  rw [secondsToNanos, h, roundDiv_eq_zero_iff (powerBelow_pos _)]
  simp

end Dyadic

/-! ## Both roundings -/

namespace Literal

variable {l l' : Literal} {s s' : Span}

/-- **The shortcuts change nothing**: a literal of any size is rounded first and looked at then. -/
theorem seconds?_eq (l : Literal) :
    l.seconds? =
      if l.toDyadic.mantissa = 0 then some Span.zero
      else if l.negative || l.toDyadic.exceedsWord then none
      else some ⟨l.toDyadic.secondsToNanos⟩ := by
  rw [seconds?]
  by_cases hsmall : l.mantissa = 0 ∨ l.magnitude < -400
  · rw [if_pos (by simpa using hsmall), if_pos (mantissa_toDyadic_of_small hsmall)]
  · rw [if_neg (by simpa using hsmall)]
    obtain ⟨hzero, -⟩ := not_or.mp hsmall
    by_cases hlarge : 24 < l.magnitude
    · have hle := le_toDyadic_of_large hzero hlarge
      have hmantissa : l.toDyadic.mantissa ≠ 0 := by
        intro hm
        rw [Dyadic.value, hm, Nat.cast_zero, zero_mul] at hle
        norm_num at hle
      rw [if_pos hlarge, if_neg hmantissa, Dyadic.exceedsWord_iff.mpr hle, Bool.or_true, if_pos rfl]
    · rw [if_neg hlarge]

theorem seconds?_of_nonneg (h : 0 ≤ l.value) :
    l.seconds? = some s ↔ l.toDyadic.value < 2 ^ 64 ∧ s = ⟨l.toDyadic.secondsToNanos⟩ := by
  rw [seconds?_eq]
  by_cases hmantissa : l.toDyadic.mantissa = 0
  · have hvalue : l.toDyadic.value < 2 ^ 64 := by
      rw [Dyadic.value, hmantissa, Nat.cast_zero, zero_mul]
      norm_num
    rw [if_pos hmantissa, Dyadic.secondsToNanos_of_mantissa hmantissa, Option.some.injEq, eq_comm,
      and_iff_right hvalue]
    rfl
  · have hpositive : l.negative = false := by
      rcases l.value_cases with ⟨-, hvalue⟩ | ⟨hnegative, -⟩
      · -- Behind a minus sign only zero is not negative, and zero is rounded to zero.
        have hzero : l.size ≤ 0 := by linarith
        exact absurd (mantissa_toDyadic_eq_zero_iff.mpr (hzero.trans (by positivity))) hmantissa
      · exact hnegative
    rw [if_neg hmantissa, hpositive, Bool.false_or, Option.ite_none_left_eq_some, Bool.not_eq_true,
      ← Bool.not_eq_true, Dyadic.exceedsWord_iff, not_le, Option.some.injEq, eq_comm (a := s)]

theorem seconds?_of_neg (h : l.value < 0) :
    l.seconds? = if l.value < -2 ^ (-1075 : ℤ) then none else some Span.zero := by
  obtain ⟨hnegative, hsize⟩ := of_value_neg h
  have hvanish : l.toDyadic.mantissa = 0 ↔ ¬ l.value < -2 ^ (-1075 : ℤ) := by
    rw [mantissa_toDyadic_eq_zero_iff, hsize, not_lt, neg_le]
  rw [seconds?_eq, hnegative, Bool.true_or, if_pos rfl]
  simp only [hvanish, ite_not]

/-- **What is read keeps the order of the exact values.** -/
theorem seconds?_mono (h : 0 ≤ l.value) (hle : l.value ≤ l'.value) (hs' : l'.seconds? = some s') :
    ∃ s, l.seconds? = some s ∧ s.nanos ≤ s'.nanos := by
  have h' : 0 ≤ l'.value := h.trans hle
  have hsize : l.size ≤ l'.size := by
    rwa [size_of_nonneg h, size_of_nonneg h']
  have hdyadic := toDyadic_mono hsize
  obtain ⟨hlt, rfl⟩ := (seconds?_of_nonneg h').mp hs'
  exact ⟨_, (seconds?_of_nonneg h).mpr ⟨hdyadic.trans_lt hlt, rfl⟩,
    Dyadic.secondsToNanos_mono hdyadic⟩

/-- The first error is less than half a nanosecond, if there are less than 2^52 nanoseconds. -/
theorem abs_sub_toDyadic_lt {n : ℕ} (hn : n < 2 ^ 52) (h : l.size = n / 10 ^ 9) :
    |n / 10 ^ 9 - l.toDyadic.value| < 1 / 2 / 10 ^ 9 := by
  have hn : (n : ℚ) < 2 ^ 52 := by exact_mod_cast hn
  have hmax : max (n / 10 ^ 9 : ℚ) (2 ^ (-1022 : ℤ)) < 2 ^ 52 / 10 ^ 9 := by
    refine max_lt (div_lt_div_of_pos_right hn (by norm_num)) ?_
    calc (2 : ℚ) ^ (-1022 : ℤ) ≤ 2 ^ (0 : ℤ) := zpow_le_zpow_right₀ one_le_two (by norm_num)
      _ < 2 ^ 52 / 10 ^ 9 := by norm_num
  calc |n / 10 ^ 9 - l.toDyadic.value| ≤ max (n / 10 ^ 9 : ℚ) (2 ^ (-1022 : ℤ)) / 2 ^ 53 := by
        rw [← h]
        exact l.abs_sub_toDyadic_le
    _ < 2 ^ 52 / 10 ^ 9 / 2 ^ 53 := div_lt_div_of_pos_right hmax (by norm_num)
    _ = 1 / 2 / 10 ^ 9 := by norm_num

/-- **Nanoseconds survive both roundings**: from so small an error the second one leads back. -/
theorem seconds?_of_nanos {n : ℕ} (hn : n < 2 ^ 52) (h : l.value = n / 10 ^ 9) :
    l.seconds? = some ⟨n⟩ := by
  have hnonneg : 0 ≤ l.value := by
    rw [h]
    positivity
  obtain ⟨hlow, hhigh⟩ := abs_lt.mp (abs_sub_toDyadic_lt hn ((size_of_nonneg hnonneg).trans h))
  obtain ⟨hbelow, habove⟩ := abs_le.mp l.toDyadic.abs_sub_secondsToNanos_le
  have hn : (n : ℚ) < 2 ^ 52 := by exact_mod_cast hn
  refine (seconds?_of_nonneg hnonneg).mpr ⟨by linarith, ?_⟩
  have hle : n < l.toDyadic.secondsToNanos + 1 := by
    have hlt : (n : ℚ) < l.toDyadic.secondsToNanos + 1 := by linarith
    exact_mod_cast hlt
  have hge : l.toDyadic.secondsToNanos < n + 1 := by
    have hlt : (l.toDyadic.secondsToNanos : ℚ) < n + 1 := by linarith
    exact_mod_cast hlt
  rw [Nat.le_antisymm (Nat.lt_succ_iff.mp hle) (Nat.lt_succ_iff.mp hge)]

end Literal

/-! ## Texts -/

/-- The text is a decimal literal, with blanks around it or without, and `v` is its exact value. -/
def Says (text : String) (v : ℚ) : Prop :=
  ∃ word, Text.IsPadded text.toList word ∧ IsLiteral word v

/-- The word writes `n` nanoseconds as seconds: a whole number, a point and nine digits, of which
zeros at the end may be missing, and the point if nothing is left behind it. -/
def WritesNanos (word : List Char) (n : ℕ) : Prop :=
  ∃ whole fraction k, whole ≠ [] ∧ AreDigits whole ∧ AreDigits fraction ∧ fraction.length + k = 9 ∧
    valueOf (whole ++ fraction ++ List.replicate k '0') = n ∧
    (word = whole ++ '.' :: fraction ∨ fraction = [] ∧ word = whole)

section Texts

variable {text : String} {v : ℚ} {word : List Char} {n : ℕ}

theorem says_iff :
    Says text v ↔ ∃ l, Literal.read? (Text.trim text.toList) = some l ∧ l.value = v := by
  rw [read?_iff, Says, Text.trim_iff (P := (IsLiteral · v)) fun _ => IsLiteral.isTrimmed]

theorem parseSeconds?_of_read? {l : Literal} (h : Literal.read? (Text.trim text.toList) = some l) :
    parseSeconds? text = l.seconds? := by
  rw [parseSeconds?, h, Option.bind_some]

theorem parseSeconds?_eq_some_iff {s : Span} :
    parseSeconds? text = some s ↔
      ∃ l, Literal.read? (Text.trim text.toList) = some l ∧ l.seconds? = some s :=
  Option.bind_eq_some_iff

theorem WritesNanos.isLiteral (h : WritesNanos word n) : IsLiteral word (n / 10 ^ 9) := by
  obtain ⟨whole, fraction, k, hne, hwhole, hfraction, hlength, rfl, hword⟩ := h
  have hvalue : ((valueOf (whole ++ fraction ++ List.replicate k '0') : ℕ) : ℚ) / 10 ^ 9 =
      valueOf whole + valueOf fraction / 10 ^ fraction.length := by
    have hzeros : valueOf (List.replicate k '0') = 0 := by
      rw [valueOf, Nat.ofDigitChars_replicate_zero, Nat.mul_zero]
    rw [← mantissa_eq, valueOf_append _ (List.replicate k '0'), hzeros, List.length_replicate,
      ← hlength, pow_add, Nat.add_zero, Nat.cast_mul, Nat.cast_pow, Nat.cast_ofNat,
      mul_div_mul_right _ _ (by positivity)]
  rw [hvalue]
  rcases hword with rfl | ⟨rfl, rfl⟩
  · exact (IsMantissa.point (List.append_ne_nil_of_left_ne_nil hne _) hwhole hfraction).isLiteral
  · simpa [valueOf] using (IsMantissa.whole hne hwhole).isLiteral

/-- Every number of nanoseconds is written somehow, for one in the way in which spans are shown. -/
theorem writesNanos_inUnit (n : ℕ) : WritesNanos (Span.inUnit n 9 []) n := by
  have hmod : n % 10 ^ 9 < 10 ^ 9 := Nat.mod_lt n (by decide)
  obtain ⟨k, hk⟩ := Span.exists_append_zeros (Span.paddedDigits 9 (n % 10 ^ 9))
  have hlength := Span.length_paddedDigits hmod
  refine ⟨Nat.toDigits 10 (n / 10 ^ 9), Span.fraction n 9, k, Nat.toDigits_ne_nil, ?_, ?_, ?_, ?_,
    ?_⟩
  · exact fun c hc => Nat.isDigit_of_mem_toDigits (by decide) (by decide) hc
  · exact fun c hc => Span.isDigit_of_mem_fraction hc
  · rw [hk, List.length_append, List.length_replicate] at hlength
    exact hlength
  · have hpadded : Span.fraction n 9 ++ List.replicate k '0' = Span.paddedDigits 9 (n % 10 ^ 9) :=
      hk.symm
    rw [List.append_assoc, hpadded, valueOf_append, hlength, valueOf_toDigits,
      Span.valueOf_paddedDigits]
    exact Nat.div_add_mod' n (10 ^ 9)
  · rw [Span.inUnit_eq n (9, []), Span.behindPoint]
    split
    · exact Or.inr ⟨‹_›, List.append_nil _⟩
    · rw [List.append_nil]
      exact Or.inl rfl

end Texts

end Decimal

/-! ## Settings -/

namespace Settings

section Linger

variable {lookup : String → Option String} {capacity : Capacity} {text : String}
  {l : Decimal.Literal}

theorem ofLookup_update (hcapacity : readCapacity (lookup capacityVariable) = .ok capacity) :
    ofLookup (Function.update lookup lingerVariable (some text)) =
      match Decimal.parseSeconds? text with
      | some linger => .ok ⟨capacity, linger⟩
      | none => .error (.linger text) := by
  rw [ofLookup, Function.update_of_ne (by decide), hcapacity, Function.update_self, readLinger]
  cases Decimal.parseSeconds? text <;> rfl

theorem ofLookup_of_read? (hcapacity : readCapacity (lookup capacityVariable) = .ok capacity)
    (hread : Decimal.Literal.read? (Text.trim text.toList) = some l) :
    ofLookup (Function.update lookup lingerVariable (some text)) =
      match l.seconds? with
      | some linger => .ok ⟨capacity, linger⟩
      | none => .error (.linger text) := by
  rw [ofLookup_update hcapacity, Decimal.parseSeconds?_of_read? hread]

end Linger

/-- **Seconds are read exactly and in order.** Fewer than 2^52 nanoseconds, written as seconds with
blanks around them or without, are read as just so many. Of two literals that are not negative the
one with the lower value is accepted if the other is, and no longer linger is read from it. -/
theorem seconds_are_exact_and_in_order (lookup : String → Option String) {capacity : Capacity}
    (hcapacity : readCapacity (lookup capacityVariable) = .ok capacity) :
    (∀ text word n, Text.IsPadded text.toList word → Decimal.WritesNanos word n → n < 2 ^ 52 →
      ofLookup (Function.update lookup lingerVariable (some text)) = .ok ⟨capacity, ⟨n⟩⟩) ∧
    ∀ less more a b, Decimal.Says less a → Decimal.Says more b → 0 ≤ a → a ≤ b →
      ∀ s, ofLookup (Function.update lookup lingerVariable (some more)) = .ok s →
        ∃ r, ofLookup (Function.update lookup lingerVariable (some less)) = .ok r ∧
          r.linger.nanos ≤ s.linger.nanos := by
  refine ⟨?_, ?_⟩
  · intro text word n hpadded hwrites hn
    obtain ⟨l, hread, hvalue⟩ := Decimal.says_iff.mp ⟨word, hpadded, hwrites.isLiteral⟩
    rw [ofLookup_of_read? hcapacity hread, Decimal.Literal.seconds?_of_nanos hn hvalue]
  · intro less more a b hless hmore ha hab s hs
    obtain ⟨l, hread, rfl⟩ := Decimal.says_iff.mp hless
    obtain ⟨l', hread', rfl⟩ := Decimal.says_iff.mp hmore
    rw [ofLookup_of_read? hcapacity hread'] at hs
    split at hs
    case h_1 linger hlinger =>
      obtain rfl := Except.ok.inj hs
      obtain ⟨linger', hlinger', hle⟩ := Decimal.Literal.seconds?_mono ha hab hlinger
      exact ⟨⟨capacity, linger'⟩, by rw [ofLookup_of_read? hcapacity hread, hlinger'], hle⟩
    case h_2 => cases hs

/-- A quarter of a second between blanks, and a tenth and a fifth of one. -/
theorem seconds_are_exact_and_in_order_quarter :
    ofLookup (Function.update (fun _ => none) lingerVariable (some " 0.25\n")) =
        .ok ⟨standard.capacity, ⟨250000000⟩⟩ ∧
      ∃ r, ofLookup (Function.update (fun _ => none) lingerVariable (some "0.1")) = .ok r ∧
        r.linger.nanos ≤ 200000000 := by
  have hunset : readCapacity none = .ok standard.capacity := rfl
  obtain ⟨hexact, horder⟩ := seconds_are_exact_and_in_order (fun _ => none) hunset
  refine ⟨?_, ?_⟩
  · refine hexact " 0.25\n" ['0', '.', '2', '5'] 250000000 ?_ ?_ (by norm_num)
    · exact ⟨[' '], ['\n'], by decide, List.forall_mem_singleton.mpr (by decide),
        List.forall_mem_singleton.mpr (by decide)⟩
    · exact ⟨['0'], ['2', '5'], 7, by decide, by decide, by decide, by decide, by decide,
        Or.inl rfl⟩
  · refine horder "0.1" "2e-1" (1 / 10) (1 / 5) ?_ ?_ (by norm_num) (by norm_num)
      ⟨standard.capacity, ⟨200000000⟩⟩ (by decide +kernel)
    · exact Decimal.says_iff.mpr ⟨⟨false, 1, -1⟩, by decide, by
        norm_num [Decimal.Literal.value, Decimal.Literal.size, Decimal.signed]⟩
    · exact Decimal.says_iff.mpr ⟨⟨false, 2, -1⟩, by decide, by
        norm_num [Decimal.Literal.value, Decimal.Literal.size, Decimal.signed]⟩

/-- **Negative seconds are refused unless they vanish in the first rounding.** A literal with a
negative value is an error that shows the text, if it lies below half of the least floating-point
number, and counts as no time at all if it does not. Whatever is accepted is a literal, and none of
those that are refused. -/
theorem negative_seconds_are_refused_unless_they_vanish (lookup : String → Option String)
    {capacity : Capacity} (hcapacity : readCapacity (lookup capacityVariable) = .ok capacity) :
    (∀ text v, Decimal.Says text v → v < 0 →
      ofLookup (Function.update lookup lingerVariable (some text)) =
        if v < -2 ^ (-1075 : ℤ) then .error (.linger text) else .ok ⟨capacity, Span.zero⟩) ∧
    ∀ text s, ofLookup (Function.update lookup lingerVariable (some text)) = .ok s →
      ∃ v, Decimal.Says text v ∧ -2 ^ (-1075 : ℤ) ≤ v := by
  refine ⟨?_, ?_⟩
  · intro text v hsaid hneg
    obtain ⟨l, hread, rfl⟩ := Decimal.says_iff.mp hsaid
    rw [ofLookup_of_read? hcapacity hread, Decimal.Literal.seconds?_of_neg hneg]
    by_cases hlow : l.value < -2 ^ (-1075 : ℤ)
    · rw [if_pos hlow, if_pos hlow]
    · rw [if_neg hlow, if_neg hlow]
  · intro text s hs
    rw [ofLookup_update hcapacity] at hs
    split at hs
    case h_1 linger hlinger =>
      obtain ⟨l, hread, hseconds⟩ := Decimal.parseSeconds?_eq_some_iff.mp hlinger
      refine ⟨l.value, Decimal.says_iff.mpr ⟨l, hread, rfl⟩, ?_⟩
      by_contra hlow
      have hlow : l.value < -2 ^ (-1075 : ℤ) := not_le.mp hlow
      have hneg : l.value < 0 := hlow.trans (neg_lt_zero.mpr (by positivity))
      rw [Decimal.Literal.seconds?_of_neg hneg, if_pos hlow] at hseconds
      cases hseconds
    case h_2 => cases hs

/-- Minus one second is refused, and 10^(-400) seconds less than none are no time at all. -/
theorem negative_seconds_are_refused_unless_they_vanish_two :
    ofLookup (Function.update (fun _ => none) lingerVariable (some "-1")) = .error (.linger "-1") ∧
      ofLookup (Function.update (fun _ => none) lingerVariable (some "-1e-400")) =
        .ok ⟨standard.capacity, Span.zero⟩ := by
  have hunset : readCapacity none = .ok standard.capacity := rfl
  obtain ⟨hrefused, -⟩ := negative_seconds_are_refused_unless_they_vanish (fun _ => none) hunset
  refine ⟨(hrefused "-1" (-1) ?_ (by norm_num)).trans (if_pos ?_),
    (hrefused "-1e-400" (-10 ^ (-400 : ℤ)) ?_ ?_).trans (if_neg ?_)⟩
  · exact Decimal.says_iff.mpr ⟨⟨true, 1, 0⟩, by decide, by
      norm_num [Decimal.Literal.value, Decimal.Literal.size, Decimal.signed]⟩
  · exact neg_lt_neg (zpow_lt_one_of_neg₀ one_lt_two (by norm_num))
  · exact Decimal.says_iff.mpr ⟨⟨true, 1, -400⟩, by decide, by
      simp [Decimal.Literal.value, Decimal.Literal.size, Decimal.signed]⟩
  · exact neg_lt_zero.mpr (by positivity)
  · exact not_lt.mpr (neg_le_neg Decimal.ten_zpow_le_two_zpow)

/-- A text that says a negative number of seconds, from which settings are read. -/
theorem vanishing_negative_seconds_are_accepted :
    ¬ ∀ text v, Decimal.Says text v → v < 0 →
      ofLookup (Function.update (fun _ => none) lingerVariable (some text)) =
        .error (.linger text) := by
  intro h
  have hsaid : Decimal.Says "-1e-400" (-10 ^ (-400 : ℤ)) :=
    Decimal.says_iff.mpr ⟨⟨true, 1, -400⟩, by decide, by
      simp [Decimal.Literal.value, Decimal.Literal.size, Decimal.signed]⟩
  have haccepted : ofLookup (Function.update (fun _ => none) lingerVariable (some "-1e-400")) =
      .ok ⟨standard.capacity, Span.zero⟩ := by
    decide +kernel
  rw [h _ _ hsaid (neg_lt_zero.mpr (by positivity))] at haccepted
  cases haccepted

end Settings

end Admission
