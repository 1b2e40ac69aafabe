import Admission.Proofs.Seconds
import Admission.Proofs.Variables

/-!
# What the environment says

A process environment holds bytes, and the readers of the settings want text. In between bytes that
are not UTF-8 get lost (`Settings.textOf`). Nothing else does:

> a variable that is set to text is read or complained of, and one that is set to other bytes is as
> good as not set.

So a value that is no capacity, or no number of seconds, is an error if it is text
(`Settings.malformed_text_is_refused`), and the default stands in for it if it is not
(`Settings.bytes_without_text_are_ignored`).

Which texts are numbers of seconds is said by two bounds. A literal is read if it is rounded to a
number of at least zero and below 2^64, and both times the middle to the next floating-point number
is rounded to the even side: towards zero at the one end, and up to 2^64 at the other.
-/

set_option autoImplicit false

namespace Admission

/-! ## The texts that are accepted -/

/-- A capacity is written in the text, with blanks around it or without. -/
def Capacity.IsWrittenIn (text : String) : Prop :=
  ∃ word k, Text.IsPadded text.toList word ∧ IsWritten word k

theorem Capacity.parse?_eq_none_iff {text : String} :
    parse? text = none ↔ ¬ IsWrittenIn text := by
  rw [Option.eq_none_iff_forall_ne_some, IsWrittenIn, exists_comm, not_exists]
  exact forall_congr' fun k => not_congr parse?_eq_some_iff

namespace Decimal

/-- A number of seconds is written in the text, with blanks around it or without: a literal with a
value that is rounded to a floating-point number of at least zero and less than 2^64. -/
def AreSeconds (text : String) : Prop :=
  ∃ v, Says text v ∧ -2 ^ (-1075 : ℤ) ≤ v ∧ v < 2 ^ 64 - 2 ^ 10

namespace Literal

variable {l : Literal}

/-- Numbers are rounded to 2^64 from the middle between it and the floating-point number below. -/
theorem toDyadic_lt_iff : l.toDyadic.value < 2 ^ 64 ↔ l.size < 2 ^ 64 - 2 ^ 10 := by
  constructor
  · intro hlt
    by_contra hnot
    -- The middle itself is a tie, and its even neighbour is 2^64.
    have hmiddle : (⟨false, 2 ^ 64 - 2 ^ 10, 0⟩ : Literal).toDyadic = ⟨2 ^ 53, 11⟩ := by
      decide +kernel
    have hsize : (⟨false, 2 ^ 64 - 2 ^ 10, 0⟩ : Literal).size = 2 ^ 64 - 2 ^ 10 := by
      norm_num [size]
    have hvalue : (⟨2 ^ 53, 11⟩ : Dyadic).value = 2 ^ 64 := by
      norm_num [Dyadic.value]
    have hle := toDyadic_mono (hsize.trans_le (not_lt.mp hnot))
    rw [hmiddle, hvalue] at hle
    exact absurd hlt (not_lt.mpr hle)
  · intro hlt
    by_contra hnot
    have hmem : (2 : ℚ) ^ 64 - 2 ^ 11 ∈ floats :=
      ⟨2 ^ 53 - 1, 11, by norm_num, by decide, by norm_num⟩
    have hbelow : (2 : ℚ) ^ 64 - 2 ^ 11 < l.toDyadic.value := by linarith
    have hhalf := add_le_two_mul hbelow (l.isNearest_toDyadic.2 _ hmem)
    linarith

theorem exists_seconds?_iff :
    (∃ s, l.seconds? = some s) ↔ -2 ^ (-1075 : ℤ) ≤ l.value ∧ l.value < 2 ^ 64 - 2 ^ 10 := by
  rcases lt_or_ge l.value 0 with hneg | hnonneg
  · have hhigh : l.value < 2 ^ 64 - 2 ^ 10 := hneg.trans (by norm_num)
    rw [seconds?_of_neg hneg, and_iff_left hhigh]
    split
    case isTrue hlow => exact iff_of_false (by simp) (not_le.mpr hlow)
    case isFalse hlow => exact iff_of_true ⟨Span.zero, rfl⟩ (not_lt.mp hlow)
  · have hlow : -2 ^ (-1075 : ℤ) ≤ l.value := (neg_nonpos.mpr (by positivity)).trans hnonneg
    simp only [seconds?_of_nonneg hnonneg, exists_and_left, exists_eq, and_true, toDyadic_lt_iff,
      size_of_nonneg hnonneg, hlow, true_and]

end Literal

theorem parseSeconds?_eq_none_iff {text : String} :
    parseSeconds? text = none ↔ ¬ AreSeconds text := by
  rw [Option.eq_none_iff_forall_ne_some, ← not_exists]
  refine not_congr ⟨?_, ?_⟩
  · rintro ⟨s, hs⟩
    obtain ⟨l, hread, hseconds⟩ := parseSeconds?_eq_some_iff.mp hs
    exact ⟨l.value, says_iff.mpr ⟨l, hread, rfl⟩, Literal.exists_seconds?_iff.mp ⟨s, hseconds⟩⟩
  · rintro ⟨v, hsaid, hbounds⟩
    obtain ⟨l, hread, rfl⟩ := says_iff.mp hsaid
    obtain ⟨s, hseconds⟩ := Literal.exists_seconds?_iff.mpr hbounds
    exact ⟨s, parseSeconds?_eq_some_iff.mpr ⟨l, hread, hseconds⟩⟩

end Decimal

/-! ## From bytes to text -/

theorem Text.fromUTF8?_eq_some_iff {bytes : ByteArray} {text : String} :
    String.fromUTF8? bytes = some text ↔ bytes = text.toUTF8 := by
  rw [String.fromUTF8?, String.toUTF8_eq_toByteArray]
  constructor
  · intro h
    split at h
    case isTrue hvalid =>
      obtain rfl := Option.some.inj h
      rfl
    case isFalse => cases h
  · rintro rfl
    exact dif_pos text.isValidUTF8

namespace Settings

variable {env : Environment} {name text : String}

/-- The bytes are those of a text of a certain kind. -/
def IsTextOf (kind : String → Prop) (bytes : ByteArray) : Prop :=
  ∃ text : String, bytes = text.toUTF8 ∧ kind text

theorem textOf_eq_some_iff : textOf env name = some text ↔ env name = some text.toUTF8 := by
  rw [textOf, Option.bind_eq_some_iff]
  simp only [Text.fromUTF8?_eq_some_iff, exists_eq_right]

theorem textOf_eq_none_of_invalid {bytes : ByteArray} (hbytes : env name = some bytes)
    (hinvalid : ¬ bytes.IsValidUTF8) : textOf env name = none := by
  rw [textOf, hbytes]
  exact dif_neg hinvalid

/-- Bytes that are not UTF-8 are as good as none. -/
theorem textOf_filter :
    textOf (fun name => (env name).filter ByteArray.validateUTF8) name = textOf env name := by
  cases hbytes : env name with
  | none => rw [textOf, textOf, hbytes, Option.filter_none]
  | some bytes =>
    by_cases hvalid : bytes.IsValidUTF8
    · rw [textOf, textOf, hbytes, Option.filter_some,
        if_pos (ByteArray.validateUTF8_eq_true_iff.mpr hvalid)]
    · rw [textOf_eq_none_of_invalid hbytes hvalid, textOf, hbytes, Option.filter_some,
        if_neg (mt ByteArray.validateUTF8_eq_true_iff.mp hvalid), Option.bind_none]

/-! ## What is refused -/

/-- A setting is given unless a text spoils it. -/
theorem exists_gives_iff {α : Type} {read : String → Option α} {usual : α}
    {value : Option String} :
    (∃ a, Gives read usual value a) ↔ ∀ text, ¬ Spoils read value text := by
  cases value with
  | none => simp [Gives, Spoils]
  | some text => cases hread : read text <;> simp [Gives, Spoils, hread]

/-- The variable is set to a text that is not of the kind that is read from it. -/
def IsMalformed (env : Environment) (name : String) (kind : String → Prop) (text : String) : Prop :=
  env name = some text.toUTF8 ∧ ¬ kind text

theorem spoils_textOf_iff {α : Type} {read : String → Option α} {kind : String → Prop}
    (hkind : ∀ text, read text = none ↔ ¬ kind text) :
    Spoils read (textOf env name) text ↔ IsMalformed env name kind text :=
  and_congr textOf_eq_some_iff (hkind text)

/-- **The first variable at fault is complained of, with its text.** -/
theorem ofEnvironment_eq_error_iff {e : SettingsError} :
    ofEnvironment env = .error e ↔
      (∃ text, IsMalformed env capacityVariable Capacity.IsWrittenIn text ∧ e = .capacity text) ∨
        (∀ text, ¬ IsMalformed env capacityVariable Capacity.IsWrittenIn text) ∧
          ∃ text, IsMalformed env lingerVariable Decimal.AreSeconds text ∧ e = .linger text := by
  rw [ofEnvironment, ofLookup_eq_error_iff, exists_gives_iff]
  simp only [spoils_textOf_iff fun _ => Capacity.parse?_eq_none_iff,
    spoils_textOf_iff fun _ => Decimal.parseSeconds?_eq_none_iff]

/-- **Malformed text is refused, and nothing else is.** There is an error if and only if one of the
two variables is set to a text that is not of its kind. The error names the variable and shows the
text, that of the capacity if both are at fault. Bytes that are no text have no influence, neither
on the settings nor on the error. -/
theorem malformed_text_is_refused (env : Environment) :
    ((∃ e, ofEnvironment env = .error e) ↔
      (∃ text, IsMalformed env capacityVariable Capacity.IsWrittenIn text) ∨
        ∃ text, IsMalformed env lingerVariable Decimal.AreSeconds text) ∧
    (∀ e, ofEnvironment env = .error e ↔
      (∃ text, IsMalformed env capacityVariable Capacity.IsWrittenIn text ∧ e = .capacity text) ∨
        (∀ text, ¬ IsMalformed env capacityVariable Capacity.IsWrittenIn text) ∧
          ∃ text, IsMalformed env lingerVariable Decimal.AreSeconds text ∧ e = .linger text) ∧
    ofEnvironment env = ofEnvironment fun name => (env name).filter ByteArray.validateUTF8 := by
  refine ⟨?_, fun e => ofEnvironment_eq_error_iff, ?_⟩
  · simp only [ofEnvironment_eq_error_iff]
    constructor
    · rintro ⟨e, ⟨text, hmalformed, -⟩ | ⟨-, text, hmalformed, -⟩⟩
      · exact Or.inl ⟨text, hmalformed⟩
      · exact Or.inr ⟨text, hmalformed⟩
    · intro hmalformed
      by_cases hcapacity : ∃ text, IsMalformed env capacityVariable Capacity.IsWrittenIn text
      · obtain ⟨text, htext⟩ := hcapacity
        exact ⟨.capacity text, Or.inl ⟨text, htext, rfl⟩⟩
      · obtain ⟨text, htext⟩ := hmalformed.resolve_left hcapacity
        exact ⟨.linger text, Or.inr ⟨not_exists.mp hcapacity, text, htext, rfl⟩⟩
  · rw [ofEnvironment, ofEnvironment]
    exact congrArg ofLookup (funext fun name => textOf_filter.symm)

/-- A byte that is no text stands in place of a capacity, and the default is taken. -/
theorem bytes_without_text_are_ignored :
    ¬ ∀ env : Environment,
      (∃ bytes, env capacityVariable = some bytes ∧ ¬ IsTextOf Capacity.IsWrittenIn bytes) ∨
        (∃ bytes, env lingerVariable = some bytes ∧ ¬ IsTextOf Decimal.AreSeconds bytes) →
      ∃ e, ofEnvironment env = .error e := by
  intro h
  let env : Environment := fun name => if name = capacityVariable then some ⟨#[0xFF]⟩ else none
  have hno : String.fromUTF8? ⟨#[0xFF]⟩ = none := by decide
  have htext : ¬ IsTextOf Capacity.IsWrittenIn ⟨#[0xFF]⟩ := by
    rintro ⟨text, hbytes, -⟩
    rw [Text.fromUTF8?_eq_some_iff.mpr hbytes] at hno
    cases hno
  obtain ⟨e, he⟩ := h env (Or.inl ⟨⟨#[0xFF]⟩, rfl, htext⟩)
  have hstandard : ofEnvironment env = .ok standard := by decide +kernel
  rw [hstandard] at he
  cases he

end Settings

end Admission
