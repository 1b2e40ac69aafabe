import Admission.Json.Decode
import Mathlib.Data.List.Basic
import Mathlib.Tactic.Common

/-!
# What is written as JSON is read back

The writer gives a value one form only, and the reader takes many. That the two fit has to be seen
at the places where one part of a text ends and the next begins, and at each of them a single fact
decides:

> a reader of a part does not look at what follows the part, as long as what follows cannot go on
> with it.

A text ends at its quotation mark, which is never written bare inside it, so anything may follow. A
number has no mark at its end; it must not be followed by another digit, a point or an exponent, and
it never is (`Json.EndsNumber`). Every law here therefore speaks of a written form with a rest
behind it.
-/

set_option autoImplicit false

namespace Admission

namespace Json

/-! ## Texts -/

theorem hexValue?_hexDigit {n : Nat} (h : n < 16) : Text.hexValue? (hexDigit n) = some n := by
  decide +revert

/-- The four digits of a control character. -/
theorem readHex?_control {n : Nat} (h : n < 0x20) :
    Text.readHex? ['0', '0', hexDigit (n / 16), hexDigit (n % 16)] = some n := by
  have hzero : Text.hexValue? '0' = some 0 := by decide
  have hhigh := hexValue?_hexDigit (n := n / 16) (by omega)
  have hlow := hexValue?_hexDigit (n := n % 16) (by omega)
  simp only [Text.readHex?, List.foldlM_cons, List.foldlM_nil, hzero, hhigh, hlow, Option.map_some,
    Option.bind_eq_bind, Option.bind_some, Option.pure_def, Option.some.injEq]
  omega

theorem readText_plain {c : Char} (hquote : c ≠ '"') (hslash : c ≠ '\\')
    (hcontrol : ¬ c.toNat < 0x20) (rest : List Char) :
    readText (c :: rest) = consChar c (readText rest) := by
  rw [readText]
  · simp [isControl, hcontrol]
  · exact hquote
  -- The other patterns begin with a backslash.
  all_goals
    intros
    contradiction

/-- **A character is read back from its written form**, whatever follows. -/
theorem readText_escapeChar (c : Char) (rest : List Char) :
    readText (escapeChar c ++ rest) = consChar c (readText rest) := by
  unfold escapeChar
  split_ifs with hquote hslash hb hf hn hr ht hcontrol
  · subst hquote; simp [readText, shortEscape?]
  · subst hslash; simp [readText, shortEscape?]
  · subst hb; simp [readText, shortEscape?]
  · subst hf; simp [readText, shortEscape?]
  · subst hn; simp [readText, shortEscape?]
  · subst hr; simp [readText, shortEscape?]
  · subst ht; simp [readText, shortEscape?]
  · -- A code point below U+0020 is no surrogate, and needs no partner.
    have htrailing : isTrailing c.toNat = false := by simp [isTrailing]; omega
    have hleading : isLeading c.toNat = false := by simp [isLeading]; omega
    simp [readText, readHex?_control hcontrol, htrailing, hleading]
  · exact readText_plain hquote hslash hcontrol rest

theorem readText_flatMap (s rest : List Char) :
    readText (s.flatMap escapeChar ++ '"' :: rest) = .ok (s, rest) := by
  induction s with
  | nil => simp [readText]
  | cons c s ih =>
    rw [List.flatMap_cons, List.append_assoc, readText_escapeChar, ih]
    rfl

/-- The written form of a text, and the rest behind it. -/
theorem writeText_append (s rest : List Char) :
    writeText s ++ rest = '"' :: (s.flatMap escapeChar ++ '"' :: rest) := by
  simp [writeText]

theorem skipBlank_cons {c : Char} (h : isBlank c = false) (s : List Char) :
    skipBlank (c :: s) = c :: s := by
  simp [skipBlank, h]

theorem readString_writeText (s rest : List Char) :
    readString (writeText s ++ rest) = .ok (s, rest) := by
  rw [writeText_append, readString, skipBlank_cons (by decide)]
  exact readText_flatMap s rest

/-! ## Numbers -/

/-- What can follow a number without going on with it. -/
def EndsNumber (rest : List Char) : Prop :=
  ∀ c ∈ rest.head?, c.isDigit = false ∧ c ≠ '.' ∧ c ≠ 'e' ∧ c ≠ 'E'

theorem endsNumber_nil : EndsNumber [] := by simp [EndsNumber]

theorem endsNumber_brace (rest : List Char) : EndsNumber ('}' :: rest) := by
  simp [EndsNumber]

theorem EndsNumber.takeWhile_dropWhile {rest : List Char} (h : EndsNumber rest) :
    rest.takeWhile Char.isDigit = [] ∧ rest.dropWhile Char.isDigit = rest := by
  cases rest with
  | nil => exact ⟨rfl, rfl⟩
  | cons c rest => simp [(h c rfl).1]

theorem isDigit_of_mem_toDigits {n : Nat} {c : Char} (h : c ∈ Nat.toDigits 10 n) :
    c.isDigit = true := Nat.isDigit_of_mem_toDigits (by decide) (by decide) h

theorem exists_toDigits (n : Nat) :
    ∃ c s, Nat.toDigits 10 n = c :: s ∧ c.isDigit = true := by
  obtain ⟨c, s, hs⟩ := List.exists_cons_of_ne_nil (Nat.toDigits_ne_nil (b := 10) (n := n))
  exact ⟨c, s, hs, isDigit_of_mem_toDigits (n := n) (by simp [hs])⟩

/-- The first digit of a number is zero only if the number is. -/
theorem head?_toDigits {n : Nat} (h : 0 < n) :
    ∃ c s, Nat.toDigits 10 n = c :: s ∧ c ≠ '0' ∧ c.isDigit = true := by
  induction n using Nat.strongRecOn with
  | ind n ih =>
    rw [Nat.toDigits_eq_if (by decide)]
    split
    case isTrue hlt =>
      have hdigits : ∀ d < 10, 0 < d → d.digitChar ≠ '0' ∧ d.digitChar.isDigit = true := by decide
      exact ⟨_, [], rfl, hdigits n hlt h⟩
    case isFalse hge =>
      obtain ⟨c, s, hs, hc⟩ := ih (n / 10) (by omega) (by omega)
      exact ⟨c, s ++ [(n % 10).digitChar], by rw [hs]; rfl, hc⟩

theorem afterWhole_of_endsNumber {digits rest : List Char} (hrest : EndsNumber rest)
    (hsmall : Decimal.valueOf digits < UInt64.size) (isNegative : Bool) :
    afterWhole isNegative digits rest =
      .ok (wholeNumber isNegative (Decimal.valueOf digits), rest) := by
  cases rest with
  | nil => simp [afterWhole, afterDigits, hsmall]
  | cons c rest =>
    obtain ⟨-, hpoint, he, hE⟩ := hrest c rfl
    have hnone : ∀ l, afterDigits l (c :: rest) = none := by
      intro l
      simp [afterDigits, he, hE]
    unfold afterWhole
    split
    · next heq => exact absurd (List.cons.inj heq).1 hpoint
    · simp [hnone, hsmall]

/-- **A number of 64 bits is read back from its digits**, if what follows cannot go on with it. -/
theorem readNumber_toDigits {n : Nat} (hn : n < UInt64.size) {rest : List Char}
    (hrest : EndsNumber rest) (isNegative : Bool) :
    readNumber isNegative (Nat.toDigits 10 n ++ rest) =
      .ok (wholeNumber isNegative n, rest) := by
  have hvalue := Decimal.valueOf_toDigits n
  have hafter := afterWhole_of_endsNumber hrest (hvalue ▸ hn) isNegative
  rw [hvalue] at hafter
  rcases Nat.eq_zero_or_pos n with rfl | hpos
  · have hnext : (rest.head?.map Char.isDigit).getD false = false := by
      cases rest with
      | nil => rfl
      | cons c rest => exact (hrest c rfl).1
    show readNumber isNegative ('0' :: rest) = _
    rw [readNumber, if_pos rfl, hnext]
    exact hafter
  · obtain ⟨c, s, hs, hc, hdigit⟩ := head?_toDigits hpos
    have hall : ∀ d ∈ s, d.isDigit = true := by
      intro d hd
      exact isDigit_of_mem_toDigits (n := n) (by rw [hs]; exact List.mem_cons_of_mem c hd)
    have hstop := hrest.takeWhile_dropWhile
    rw [hs] at hafter ⊢
    rw [List.cons_append, readNumber, if_neg hc, if_pos hdigit,
      List.takeWhile_append_of_pos hall, List.dropWhile_append_of_pos hall, hstop.1, hstop.2,
      List.append_nil]
    exact hafter

theorem digit_cases {c : Char} (h : c.isDigit = true) : c ≠ '-' ∧ isBlank c = false := by
  refine ⟨?_, ?_⟩
  · intro heq
    subst heq
    exact absurd h (by decide)
  · by_contra hblank
    simp only [isBlank, Bool.not_eq_false, Bool.or_eq_true, decide_eq_true_eq] at hblank
    rcases hblank with ((heq | heq) | heq) | heq <;> · subst heq; exact absurd h (by decide)

theorem readAnyNumber_of_digits {n : Nat} (rest : List Char) :
    readAnyNumber (Nat.toDigits 10 n ++ rest) = readNumber false (Nat.toDigits 10 n ++ rest) := by
  obtain ⟨c, s, hs, hdigit⟩ := exists_toDigits n
  obtain ⟨hminus, hblank⟩ := digit_cases hdigit
  rw [hs, List.cons_append, readAnyNumber, skipBlank_cons hblank]
  split
  · next heq => exact absurd (List.cons.inj heq).1 hminus
  · next heq =>
    obtain ⟨rfl, rfl⟩ := List.cons.inj heq
    rw [if_pos hdigit]
  · next heq => cases heq

/-- **An integer is read back from its written form**, if it lies between the bounds and 64 bits
hold it. -/
theorem readInt_writeInt {least bound n : Int} (hleast : least ≤ n) (hbound : n < bound)
    (hlow : -9223372036854775808 ≤ n) (hhigh : n < 18446744073709551616) {rest : List Char}
    (hrest : EndsNumber rest) : readInt least bound (writeInt n ++ rest) = .ok (n, rest) := by
  have hsmall : n.natAbs < UInt64.size := by
    show n.natAbs < 18446744073709551616
    omega
  unfold writeInt
  split
  case isTrue hneg =>
    have hwhole : wholeNumber true n.natAbs = .negative n.natAbs := by
      have hpow : Nat.pow 2 63 = 2 ^ 63 := rfl
      simp only [wholeNumber, if_true, hpow]
      rw [if_neg (by simp; omega)]
    have hread : readAnyNumber ('-' :: Nat.toDigits 10 n.natAbs ++ rest) =
        .ok (.negative n.natAbs, rest) := by
      rw [List.cons_append, readAnyNumber, skipBlank_cons (by decide)]
      exact hwhole ▸ readNumber_toDigits hsmall hrest true
    have habs : -(n.natAbs : Int) = n := by omega
    simp only [readInt, hread, habs]
    rw [if_pos ⟨hleast, hbound⟩]
  case isFalse hpos =>
    have habs : (n.natAbs : Int) = n := by omega
    simp only [readInt, readAnyNumber_of_digits, readNumber_toDigits hsmall hrest, wholeNumber,
      Bool.false_eq_true, if_false, habs]
    rw [if_pos ⟨hleast, hbound⟩]

/-! ## Whole texts -/

/-- A reader that is left with nothing has read the whole text. -/
theorem expectEnd_of_nil {α : Type} {a : α} {r : Parsed α} (h : r = .ok (a, [])) :
    expectEnd r = .ok a := by
  subst h
  rfl

end Json

open Json

/-! ## Entries -/

namespace Entry

/-- What stands before a field that is not the first one. -/
def separator (first : Bool) : List Char := if first then [] else [',']

/-- A field as it is written, with what stands before it. -/
def writeField (first : Bool) (name value rest : List Char) : List Char :=
  separator first ++ (writeText name ++ ':' :: (writeText value ++ rest))

theorem nextField_separator (first : Bool) (s : List Char) :
    nextField first (separator first ++ '"' :: s) = .ok (true, s) := by
  cases first with
  | true => simp [nextField, separator, skipBlank_cons (c := '"') (by decide)]
  | false =>
    simp [nextField, separator, skipBlank_cons (c := ',') (by decide),
      skipBlank_cons (c := '"') (by decide)]

/-- **A field that was not read before is read back**, and the rest is left. -/
theorem readFields_writeField (field : Field) {name value : List Char} {p : Partial}
    (hname : Field.ofName? name = some field) (hnew : p.get field = none) (fuel : Nat)
    (first : Bool) (rest : List Char) :
    readFields (fuel + 1) first p (writeField first name value rest) =
      readFields fuel false (p.set value field) rest := by
  have hnext := nextField_separator first
    (name.flatMap escapeChar ++ '"' :: ':' :: (writeText value ++ rest))
  have hcolon : expectColon (':' :: (writeText value ++ rest)) = .ok (writeText value ++ rest) := by
    rw [expectColon, skipBlank_cons (by decide)]
    rfl
  rw [← writeText_append] at hnext
  simp only [readFields, writeField, hnext, readText_flatMap, readField, hname, hnew,
    Option.isSome_none, Bool.false_eq_true, if_false, hcolon, readString_writeText]

theorem toList_compact (e : Entry) :
    e.json.compact.toList = '{' ::
      writeField true "protocol".toList e.protocol.toList
        (writeField false "local_addr".toList e.localAddr.toList
          (writeField false "remote_addr".toList e.remoteAddr.toList ['}'])) := by
  simp [Value.compact, json, Value.write, writeFields, writeMoreFields, writeField, separator]

theorem ofJson_compact (e : Entry) : ofJson e.json.compact = .ok e := by
  refine expectEnd_of_nil ?_
  rw [toList_compact, read, skipBlank_cons (by decide)]
  -- The fuel is the length of the text, and a round is needed for each field and one for the end.
  generalize hbody : writeField true "protocol".toList _ _ = body
  obtain ⟨fuel, hfuel⟩ : ∃ fuel, body.length + 1 = fuel + 4 := by
    refine ⟨body.length - 3, ?_⟩
    have hlength : 3 ≤ body.length := by
      rw [← hbody]
      simp [writeField, separator, writeText]
      omega
    omega
  show readFields (body.length + 1) true .empty body = _
  rw [hfuel, ← hbody, readFields_writeField .protocol rfl rfl,
    readFields_writeField .localAddr rfl rfl, readFields_writeField .remoteAddr rfl rfl]
  simp [readFields, nextField, skipBlank_cons (c := '}') (by decide), Partial.set, Partial.empty,
    Partial.entry?]

end Entry

/-! ## Priorities and capacities -/

theorem Priority.ofJson_compact (p : Priority) : Priority.ofJson p.json.compact = .ok p := by
  refine expectEnd_of_nil ?_
  have hleast := p.least_le
  have hbound := p.lt_bound
  have hread := readInt_writeInt hleast hbound (by omega) (by omega) endsNumber_nil
  rw [List.append_nil] at hread
  have hvalue : ofInt? p.value = some p := by
    rw [ofInt?, dif_pos ⟨hleast, hbound⟩]
  simp only [Value.compact, json, Value.write, String.toList_ofList, Priority.read, hread, hvalue]

namespace Capacity

theorem ofJson_compact_limited (slots : UInt64) :
    ofJson (limited slots).json.compact = .ok (limited slots) := by
  refine expectEnd_of_nil ?_
  have hbound : slots.toNat < UInt64.size := slots.toNat_lt
  have hread : readInt 0 UInt64.size (writeInt slots.toNat ++ ['}']) = .ok (slots.toNat, ['}']) :=
    readInt_writeInt (by omega) (by exact_mod_cast hbound) (by omega)
      (Int.ofNat_lt.mpr hbound) (endsNumber_brace [])
  have hname : readKindName (writeText "limited".toList ++ ':' :: (writeInt slots.toNat ++ ['}'])) =
      .ok (.limited, ':' :: (writeInt slots.toNat ++ ['}'])) := by
    rw [writeText_append, readKindName, skipBlank_cons (by decide)]
    show readKind _ = _
    rw [readKind, readText_flatMap]
    rfl
  have hwrite : (limited slots).json.compact.toList =
      '{' :: (writeText "limited".toList ++ ':' :: (writeInt slots.toNat ++ ['}'])) := by
    simp [Value.compact, json, Value.write, writeFields, writeMoreFields]
  rw [hwrite, Capacity.read, skipBlank_cons (by decide)]
  simp only [hname, expectColon, skipBlank_cons (c := ':') (by decide), readPayload, hread]
  simp [expectObjectEnd, skipBlank_cons (c := '}') (by decide)]

theorem ofJson_compact (k : Capacity) : ofJson k.json.compact = .ok k := by
  cases k with
  | limited slots => exact ofJson_compact_limited slots
  | unlimited => decide

end Capacity

/-- **What is written is read back**: an entry of any three texts, a priority of 32 bits and a
capacity of any size are what their compact JSON text is read as, so that no other value of the
kind has the same text. -/
theorem json_reads_back :
    ((∀ e : Entry, Entry.ofJson e.json.compact = .ok e) ∧
      ∀ e e' : Entry, e.json.compact = e'.json.compact → e = e') ∧
    ((∀ p : Priority, Priority.ofJson p.json.compact = .ok p) ∧
      ∀ p p' : Priority, p.json.compact = p'.json.compact → p = p') ∧
    ((∀ k : Capacity, Capacity.ofJson k.json.compact = .ok k) ∧
      ∀ k k' : Capacity, k.json.compact = k'.json.compact → k = k') := by
  have hinj : ∀ {α : Type} {write : α → String} {read : String → Except Fault α},
      (∀ a, read (write a) = .ok a) → ∀ a a', write a = write a' → a = a' := by
    intro α write read hback a a' heq
    have ha := hback a
    rw [heq, hback a'] at ha
    exact (Except.ok.inj ha).symm
  exact ⟨⟨Entry.ofJson_compact, hinj Entry.ofJson_compact⟩,
    ⟨Priority.ofJson_compact, hinj Priority.ofJson_compact⟩,
    ⟨Capacity.ofJson_compact, hinj Capacity.ofJson_compact⟩⟩

end Admission
