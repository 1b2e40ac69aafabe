import Admission.Proofs.Numerals
import Admission.Settings
import Mathlib.Data.List.TakeWhile
import Mathlib.Data.List.DropRight
import Mathlib.Data.List.Forall2

/-!
# What the variables say

A value that is typed into a variable has one of two forms, and blanks may stand around it. The
reader takes the blanks away first and looks at the form afterwards, and nothing is lost by that:

> a text is a word between blanks in one way only, if the word neither begins nor ends with a blank.

So a capacity is read from a text exactly if one is written in it (`Capacity.parse?_eq_some_iff`).
The settings are then what each of the two variables says on its own, and when both are wrong the
capacity is complained of (`Settings.ofLookup_eq_ok_iff`, `Settings.ofLookup_eq_error_iff`).
-/

set_option autoImplicit false

namespace Admission

/-! ## Blanks around a word -/

namespace Text

/-- The text is the word with blanks around it. -/
def IsPadded (s word : List Char) : Prop :=
  ∃ left right, s = left ++ word ++ right ∧ (∀ c ∈ left, isBlank c = true) ∧
    ∀ c ∈ right, isBlank c = true

/-- The word neither begins nor ends with a blank. -/
def IsTrimmed (word : List Char) : Prop :=
  (∀ c ∈ word.head?, isBlank c = false) ∧ ∀ c ∈ word.getLast?, isBlank c = false

theorem isPadded_trim (s : List Char) : IsPadded s (trim s) := by
  refine ⟨s.takeWhile isBlank, ((s.dropWhile isBlank).reverse.takeWhile isBlank).reverse, ?_, ?_,
    ?_⟩
  · have hend := congrArg List.reverse
      (List.takeWhile_append_dropWhile (p := isBlank) (l := (s.dropWhile isBlank).reverse))
    rw [List.reverse_append, List.reverse_reverse] at hend
    rw [trim, List.append_assoc, hend, List.takeWhile_append_dropWhile]
  · exact fun c hc => List.mem_takeWhile_imp hc
  · exact fun c hc => List.mem_takeWhile_imp (List.mem_reverse.mp hc)

theorem isBlank_of_head?_dropWhile {s : List Char} :
    ∀ c ∈ (s.dropWhile isBlank).head?, isBlank c = false := by
  intro c hc
  have hnot := List.head?_dropWhile_not isBlank s
  rw [Option.mem_def.mp hc] at hnot
  exact hnot

theorem isTrimmed_trim (s : List Char) : IsTrimmed (trim s) := by
  constructor
  · intro c hc
    obtain ⟨right, hright⟩ : trim s <+: s.dropWhile isBlank := List.rdropWhile_prefix isBlank _
    refine isBlank_of_head?_dropWhile (s := s) c ?_
    rw [← hright, List.head?_append, Option.mem_def.mp hc]
    rfl
  · rw [trim, List.getLast?_reverse]
    exact isBlank_of_head?_dropWhile

theorem dropWhile_isBlank_append {left s : List Char} (hleft : ∀ c ∈ left, isBlank c = true)
    (hs : ∀ c ∈ s.head?, isBlank c = false) : (left ++ s).dropWhile isBlank = s := by
  rw [List.dropWhile_append_of_pos hleft]
  cases s with
  | nil => rfl
  | cons c s => exact List.dropWhile_cons_of_neg (by simp [hs c rfl])

theorem trim_of_isPadded {s word : List Char} (h : IsPadded s word) (hword : IsTrimmed word) :
    trim s = word := by
  obtain ⟨left, right, rfl, hleft, hright⟩ := h
  have hrest : ∀ c ∈ right.reverse, isBlank c = true := fun c hc =>
    hright c (List.mem_reverse.mp hc)
  have hword' : ∀ c ∈ word.reverse.head?, isBlank c = false := by
    rw [List.head?_reverse]
    exact hword.2
  have hend : ((word ++ right).reverse.dropWhile isBlank).reverse = word := by
    rw [List.reverse_append, dropWhile_isBlank_append hrest hword', List.reverse_reverse]
  rw [trim, List.append_assoc, List.dropWhile_append_of_pos hleft]
  cases word with
  | nil =>
    have hnil : right.dropWhile isBlank = [] := List.dropWhile_eq_nil_iff.mpr hright
    rw [List.nil_append, hnil]
    rfl
  | cons c word =>
    rw [List.cons_append, List.dropWhile_cons_of_neg (by simp [hword.1 c rfl])]
    exact hend

/-- **A text without its blank ends is the only word that it can be padded from**, so to look at
it is to look at every word of the right form that the text may hold. -/
theorem trim_iff {P : List Char → Prop} (hP : ∀ word, P word → IsTrimmed word) (s : List Char) :
    P (trim s) ↔ ∃ word, IsPadded s word ∧ P word := by
  constructor
  · intro h
    exact ⟨trim s, isPadded_trim s, h⟩
  · rintro ⟨word, hpadded, hword⟩
    rwa [trim_of_isPadded hpadded (hP word hword)]

theorem isTrimmed_of_no_blank {word : List Char} (h : ∀ c ∈ word, isBlank c = false) :
    IsTrimmed word :=
  ⟨fun c hc => h c (List.mem_of_head? hc), fun c hc => h c (List.mem_of_getLast? hc)⟩

end Text

/-! ## Capacities -/

namespace Capacity

/-- The letters of the word for no limit, small and capital. -/
def unlimitedLetters : List (Char × Char) := "unlimited".toList.zip "UNLIMITED".toList

/-- The text is the word for no limit, every letter small or capital. -/
def SpellsUnlimited (word : List Char) : Prop :=
  List.Forall₂ (fun letter c => c = letter.1 ∨ c = letter.2) unlimitedLetters word

/-- The two ways in which a capacity is written: the word for no limit, or a numeral of 64 bits. -/
inductive IsWritten : List Char → Capacity → Prop
  | unlimited {word : List Char} (h : SpellsUnlimited word) : IsWritten word .unlimited
  | limited {word : List Char} {slots : UInt64} (h : Decimal.IsNumeral word slots.toNat) :
      IsWritten word (.limited slots)

/-- The small letters come thirty-two places after the capital ones. -/
theorem toNat_toLower (c : Char) :
    c.toLower.toNat = if 65 ≤ c.toNat ∧ c.toNat ≤ 90 then c.toNat + 32 else c.toNat := by
  delta Char.toLower
  simp only [← Char.toNat_val, ge_iff_le, UInt32.le_iff_toNat_le, Char.reduceVal,
    UInt32.reduceToNat]
  split
  · rw [UInt32.toNat_add]
    simp only [UInt32.reduceSub, UInt32.reduceToNat]
    omega
  · rfl

theorem toNat_of_isLower {c : Char} (h : c.isLower = true) : 97 ≤ c.toNat ∧ c.toNat ≤ 122 := by
  delta Char.isLower at h
  simpa only [ge_iff_le, Char.reduceVal, UInt32.le_iff_toNat_le, UInt32.reduceToNat,
    Char.toNat_val, Bool.and_eq_true, decide_eq_true_eq] using h

theorem toNat_toUpper {c : Char} (h : c.isLower = true) : c.toUpper.toNat = c.toNat - 32 := by
  have hc := toNat_of_isLower h
  delta Char.toUpper
  simp only [Char.reduceVal, UInt32.le_iff_toNat_le, UInt32.reduceToNat, UInt32.reduceSub,
    ← Char.toNat_val] at hc ⊢
  rw [dif_pos hc, UInt32.toNat_add]
  simp only [UInt32.reduceToNat]
  omega

theorem toLower_eq_iff {c letter : Char} (h : letter.isLower = true) :
    c.toLower = letter ↔ c = letter ∨ c = letter.toUpper := by
  have hletter := toNat_of_isLower h
  simp only [← Char.toNat_inj, toNat_toLower, toNat_toUpper h]
  split <;> omega

/-- To compare a text in small letters is to allow both letters in every place. -/
theorem map_toLower_eq_iff (letters : List (Char × Char)) {word : List Char}
    (h : ∀ letter ∈ letters, letter.1.isLower = true ∧ letter.2 = letter.1.toUpper) :
    word.map Char.toLower = letters.map Prod.fst ↔
      List.Forall₂ (fun letter c => c = letter.1 ∨ c = letter.2) letters word := by
  induction letters generalizing word with
  | nil => simp
  | cons letter letters ih =>
    obtain ⟨⟨hlower, hupper⟩, hletters⟩ := List.forall_mem_cons.mp h
    cases word with
    | nil => simp
    | cons c word =>
      rw [List.map_cons, List.map_cons, List.cons.injEq, toLower_eq_iff hlower, ← hupper,
        ih hletters, List.forall₂_cons]

theorem map_toLower_eq_unlimitedWord_iff {word : List Char} :
    word.map Char.toLower = unlimitedWord ↔ SpellsUnlimited word :=
  map_toLower_eq_iff unlimitedLetters (by decide)

/-- What holds of the small and the capital letters holds of every letter of the word. -/
theorem SpellsUnlimited.forall_mem {word : List Char} (h : SpellsUnlimited word) {P : Char → Prop}
    (hP : ∀ letter ∈ unlimitedLetters, P letter.1 ∧ P letter.2) : ∀ c ∈ word, P c := by
  rw [SpellsUnlimited] at h
  generalize unlimitedLetters = letters at h hP
  induction h with
  | nil => simp
  | cons hc _ ih =>
    obtain ⟨hletter, hletters⟩ := List.forall_mem_cons.mp hP
    refine List.forall_mem_cons.mpr ⟨?_, ih hletters⟩
    rcases hc with rfl | rfl
    · exact hletter.1
    · exact hletter.2

theorem isBlank_of_isNumeral {word : List Char} {n : Nat} (h : Decimal.IsNumeral word n) :
    ∀ c ∈ word, Text.isBlank c = false := by
  obtain ⟨digits, hword, -, hdigits, -⟩ := h
  have hnone : ∀ c ∈ digits, Text.isBlank c = false := fun c hc => (of_isDigit (hdigits c hc)).1
  rcases hword with rfl | rfl
  · exact hnone
  · exact List.forall_mem_cons.mpr ⟨by decide, hnone⟩

theorem IsWritten.isTrimmed {word : List Char} {k : Capacity} (h : IsWritten word k) :
    Text.IsTrimmed word := by
  cases h with
  | unlimited h => exact Text.isTrimmed_of_no_blank (h.forall_mem (by decide))
  | limited h => exact Text.isTrimmed_of_no_blank (isBlank_of_isNumeral h)

/-- The two forms are apart: a numeral has a digit, and the word has none. -/
theorem SpellsUnlimited.not_isNumeral {word : List Char} (h : SpellsUnlimited word) (n : Nat) :
    ¬ Decimal.IsNumeral word n := by
  rintro ⟨digits, hword, hne, hdigits, -⟩
  have hnone : ∀ c ∈ word, c.isDigit = false := h.forall_mem (by decide)
  obtain ⟨c, hc⟩ := List.exists_mem_of_ne_nil digits hne
  have hmem : c ∈ word := by
    rcases hword with rfl | rfl
    · exact hc
    · exact List.mem_cons_of_mem _ hc
  exact absurd (hdigits c hc) (by simp [hnone c hmem])

/-- **A capacity is read from a text exactly if it is written there**, between blanks or without. -/
theorem parse?_eq_some_iff {s : String} {k : Capacity} :
    parse? s = some k ↔ ∃ word, Text.IsPadded s.toList word ∧ IsWritten word k := by
  rw [← Text.trim_iff (P := (IsWritten · k)) fun _ => IsWritten.isTrimmed, parse?]
  by_cases hspells : SpellsUnlimited (Text.trim s.toList)
  · rw [if_pos (map_toLower_eq_unlimitedWord_iff.mpr hspells), Option.some.injEq]
    constructor
    · rintro rfl
      exact .unlimited hspells
    · intro h
      cases h with
      | unlimited => rfl
      | limited h => exact absurd h (hspells.not_isNumeral _)
  · rw [if_neg (hspells ∘ map_toLower_eq_unlimitedWord_iff.mp), Option.map_eq_some_iff]
    constructor
    · rintro ⟨slots, hread, rfl⟩
      exact .limited (Decimal.readWord?_eq_some_iff.mp hread)
    · intro h
      cases h with
      | unlimited h => exact absurd h hspells
      | @limited slots h => exact ⟨slots, Decimal.readWord?_eq_some_iff.mpr h, rfl⟩

end Capacity

/-! ## Settings -/

namespace Settings

/-- A variable gives a setting: the usual value if it is not set, and else what is read from it. -/
def Gives {α : Type} (read : String → Option α) (usual : α) (value : Option String) (a : α) :
    Prop :=
  value = none ∧ a = usual ∨ ∃ text, value = some text ∧ read text = some a

/-- A variable is at fault: it is set to a text from which nothing is read. -/
def Spoils {α : Type} (read : String → Option α) (value : Option String) (text : String) : Prop :=
  value = some text ∧ read text = none

section Variables

variable {value : Option String} {e : SettingsError}

theorem readCapacity_eq_ok_iff {k : Capacity} :
    readCapacity value = .ok k ↔ Gives Capacity.parse? standard.capacity value k := by
  cases value with
  | none => simp [readCapacity, Gives, eq_comm]
  | some text => cases hread : Capacity.parse? text <;> simp [readCapacity, Gives, hread]

theorem readCapacity_eq_error_iff :
    readCapacity value = .error e ↔
      ∃ text, Spoils Capacity.parse? value text ∧ e = .capacity text := by
  cases value with
  | none => simp [readCapacity, Spoils]
  | some text =>
    cases hread : Capacity.parse? text <;> simp [readCapacity, Spoils, hread, eq_comm]

theorem readLinger_eq_ok_iff {linger : Span} :
    readLinger value = .ok linger ↔ Gives Decimal.parseSeconds? standard.linger value linger := by
  cases value with
  | none => simp [readLinger, Gives, eq_comm]
  | some text => cases hread : Decimal.parseSeconds? text <;> simp [readLinger, Gives, hread]

theorem readLinger_eq_error_iff :
    readLinger value = .error e ↔
      ∃ text, Spoils Decimal.parseSeconds? value text ∧ e = .linger text := by
  cases value with
  | none => simp [readLinger, Spoils]
  | some text =>
    cases hread : Decimal.parseSeconds? text <;> simp [readLinger, Spoils, hread, eq_comm]

end Variables

variable {lookup : String → Option String}

/-- **Both variables have to give their setting.** -/
theorem ofLookup_eq_ok_iff {s : Settings} :
    ofLookup lookup = .ok s ↔
      Gives Capacity.parse? standard.capacity (lookup capacityVariable) s.capacity ∧
        Gives Decimal.parseSeconds? standard.linger (lookup lingerVariable) s.linger := by
  rw [← readCapacity_eq_ok_iff, ← readLinger_eq_ok_iff, ofLookup]
  obtain ⟨capacity, linger⟩ := s
  cases readCapacity (lookup capacityVariable) with
  | error e => simp
  | ok k => cases readLinger (lookup lingerVariable) <;> simp

/-- **The first variable at fault is complained of.** -/
theorem ofLookup_eq_error_iff {e : SettingsError} :
    ofLookup lookup = .error e ↔
      (∃ text, Spoils Capacity.parse? (lookup capacityVariable) text ∧ e = .capacity text) ∨
        (∃ k, Gives Capacity.parse? standard.capacity (lookup capacityVariable) k) ∧
          ∃ text, Spoils Decimal.parseSeconds? (lookup lingerVariable) text ∧ e = .linger text := by
  simp only [← readCapacity_eq_ok_iff, ← readCapacity_eq_error_iff, ← readLinger_eq_error_iff]
  rw [ofLookup]
  cases readCapacity (lookup capacityVariable) with
  | error e' => simp
  | ok k => cases readLinger (lookup lingerVariable) <;> simp

/-- **Settings are read exactly.** A text is accepted for a capacity if and only if one is written
in it, with blanks around it or without. There are settings exactly if each of the two variables is
not set or accepted by its reader. A bad capacity is complained of whatever the other variable
says, a bad linger if the capacity is good, and the complaint shows the value as it was given. What
other variables say has no influence. -/
theorem variables_are_read_exactly (lookup : String → Option String) :
    (∀ text k, Capacity.parse? text = some k ↔
      ∃ word, Text.IsPadded text.toList word ∧ k.IsWritten word) ∧
    (∀ s, ofLookup lookup = .ok s ↔
      Gives Capacity.parse? standard.capacity (lookup capacityVariable) s.capacity ∧
        Gives Decimal.parseSeconds? standard.linger (lookup lingerVariable) s.linger) ∧
    (∀ text, ofLookup lookup = .error (.capacity text) ↔
      Spoils Capacity.parse? (lookup capacityVariable) text) ∧
    (∀ text, ofLookup lookup = .error (.linger text) ↔
      (∃ k, Gives Capacity.parse? standard.capacity (lookup capacityVariable) k) ∧
        Spoils Decimal.parseSeconds? (lookup lingerVariable) text) ∧
    ∀ others : String → Option String, ofLookup lookup = ofLookup fun name =>
      if name = capacityVariable ∨ name = lingerVariable then lookup name else others name := by
  refine ⟨?_, ?_, ?_, ?_, ?_⟩
  · intro text k
    exact Capacity.parse?_eq_some_iff
  · intro s
    exact ofLookup_eq_ok_iff
  · intro text
    simp [ofLookup_eq_error_iff]
  · intro text
    simp [ofLookup_eq_error_iff]
  · intro others
    rw [ofLookup, ofLookup, if_pos (Or.inl rfl), if_pos (Or.inr rfl)]

/-- Blanks, a plus sign and leading zeros are no fault. -/
example : ofLookup (fun name => if name = capacityVariable then some " +0128\n" else none) =
    .ok ⟨.limited 128, .ofWholeSeconds 30⟩ := by
  decide +kernel

end Settings

end Admission
