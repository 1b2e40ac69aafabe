import Admission.Proofs.DocumentReader
import Admission.Proofs.Readback
import Mathlib.Data.List.DropRight

/-!
# Documents that are read back

A value is written in two forms, and both are the same but for blanks. So what it is to be a written
form is said once, with blanks wherever they may stand (`Json.Denotes`), and both writers are shown
to produce one. The reader is then followed along a written form and not along a writer:

> what follows a part never goes on with it, because it begins with a blank or with a mark.

Hence every value is what its text is read as, in both forms.
-/

set_option autoImplicit false

namespace Admission.Json

/-- Is the text made of blanks? -/
def AllBlank (s : List Char) : Prop := ∀ c ∈ s, isBlank c = true

/-- Between quotation marks, the characters spell the text. A character stands for itself, or an
escape stands for it. -/
inductive Spells : List Char → List Char → Prop
  | nil : Spells [] []
  | plain {c : Char} {s t : List Char} (hquote : c ≠ '"') (hslash : c ≠ '\\')
      (hcontrol : isControl c = false) (h : Spells s t) : Spells (c :: s) (c :: t)
  | short {c e : Char} {s t : List Char} (he : shortEscape? e = some c) (h : Spells s t) :
      Spells (c :: s) ('\\' :: e :: t)
  | code {n : Nat} {s t : List Char} (d₁ d₂ d₃ d₄ : Char)
      (hn : Text.readHex? [d₁, d₂, d₃, d₄] = some n) (hleading : isLeading n = false)
      (htrailing : isTrailing n = false) (h : Spells s t) :
      Spells (Char.ofNat n :: s) ('\\' :: 'u' :: d₁ :: d₂ :: d₃ :: d₄ :: t)

/-- A part of a document. -/
inductive Part where
  | value (v : Value)
  /-- What stands between the brackets of a list that is not empty. -/
  | items (vs : List Value)
  /-- What stands between the brackets of an object that is not empty. -/
  | fields (fs : List (String × Value))

/-- The text is JSON for the part. Blanks may stand in front of names, and on both sides of items
and values. -/
inductive Denotes : Part → List Char → Prop
  | null : Denotes (.value .null) ['n', 'u', 'l', 'l']
  | true : Denotes (.value (.bool true)) ['t', 'r', 'u', 'e']
  | false : Denotes (.value (.bool false)) ['f', 'a', 'l', 's', 'e']
  | num (n : Int) : Denotes (.value (.num n)) (writeInt n)
  | str {s : String} {t : List Char} (h : Spells s.toList t) :
      Denotes (.value (.str s)) ('"' :: (t ++ ['"']))
  | emptyList {b : List Char} (hb : AllBlank b) : Denotes (.value (.arr [])) ('[' :: (b ++ [']']))
  | list {vs : List Value} {t : List Char} (h : Denotes (.items vs) t) :
      Denotes (.value (.arr vs)) ('[' :: (t ++ [']']))
  | emptyObject {b : List Char} (hb : AllBlank b) :
      Denotes (.value (.obj [])) ('{' :: (b ++ ['}']))
  | object {fs : List (String × Value)} {t : List Char} (h : Denotes (.fields fs) t) :
      Denotes (.value (.obj fs)) ('{' :: (t ++ ['}']))
  | item {v : Value} {s : List Char} (b b' : List Char) (h : Denotes (.value v) s)
      (hb : AllBlank b) (hb' : AllBlank b') : Denotes (.items [v]) (b ++ (s ++ b'))
  | moreItems {v : Value} {vs : List Value} {s t : List Char} (b b' : List Char)
      (h : Denotes (.value v) s) (hvs : Denotes (.items vs) t) (hb : AllBlank b)
      (hb' : AllBlank b') : Denotes (.items (v :: vs)) (b ++ (s ++ (b' ++ ',' :: t)))
  | field {name : String} {v : Value} {n s : List Char} (b b' b'' : List Char)
      (hname : Spells name.toList n) (h : Denotes (.value v) s) (hb : AllBlank b)
      (hb' : AllBlank b') (hb'' : AllBlank b'') :
      Denotes (.fields [(name, v)]) (b ++ '"' :: (n ++ '"' :: ':' :: (b' ++ (s ++ b''))))
  | moreFields {name : String} {v : Value} {fs : List (String × Value)} {n s t : List Char}
      (b b' b'' : List Char) (hname : Spells name.toList n) (h : Denotes (.value v) s)
      (hfs : Denotes (.fields fs) t) (hb : AllBlank b) (hb' : AllBlank b')
      (hb'' : AllBlank b'') :
      Denotes (.fields ((name, v) :: fs))
        (b ++ '"' :: (n ++ '"' :: ':' :: (b' ++ (s ++ (b'' ++ ',' :: t)))))

/-! ## Both forms are written forms -/

theorem allBlank_nil : AllBlank [] := by simp [AllBlank]

theorem allBlank_space : AllBlank [' '] := by simp [AllBlank, isBlank]

theorem allBlank_newLine (depth : Nat) : AllBlank (newLine depth) := by
  intro c hc
  rcases List.mem_cons.mp hc with rfl | hc
  · rfl
  · rw [List.eq_of_mem_replicate hc]
    rfl

theorem spells_escapeChar (c : Char) {s t : List Char} (h : Spells s t) :
    Spells (c :: s) (escapeChar c ++ t) := by
  unfold escapeChar
  split_ifs with hquote hslash hb hf hn hr ht hcontrol
  · exact .short (by subst hquote; rfl) h
  · exact .short (by subst hslash; rfl) h
  · exact .short (by subst hb; rfl) h
  · exact .short (by subst hf; rfl) h
  · exact .short (by subst hn; rfl) h
  · exact .short (by subst hr; rfl) h
  · exact .short (by subst ht; rfl) h
  · have hleading : isLeading c.toNat = false := by simp [isLeading]; omega
    have htrailing : isTrailing c.toNat = false := by simp [isTrailing]; omega
    have hspells := Spells.code _ _ _ _ (readHex?_control hcontrol) hleading htrailing h
    rwa [Char.ofNat_toNat] at hspells
  · exact .plain hquote hslash (by simp [isControl, hcontrol]) h

theorem spells_flatMap (s : List Char) : Spells s (s.flatMap escapeChar) := by
  induction s with
  | nil => exact .nil
  | cons c s ih =>
    rw [List.flatMap_cons]
    exact spells_escapeChar c ih

mutual

theorem denotes_write : ∀ v : Value, Denotes (.value v) v.write
  | .null => .null
  | .bool true => .true
  | .bool false => .false
  | .num n => .num n
  | .str s => .str (spells_flatMap s.toList)
  | .arr [] => .emptyList allBlank_nil
  | .arr (v :: vs) => .list (denotes_writeItems (v :: vs) (List.cons_ne_nil v vs))
  | .obj [] => .emptyObject allBlank_nil
  | .obj (f :: fs) => .object (denotes_writeFields (f :: fs) (List.cons_ne_nil f fs))

theorem denotes_writeItems : ∀ vs : List Value, vs ≠ [] → Denotes (.items vs) (writeItems vs)
  | [], h => absurd rfl h
  | [v], _ => .item [] [] (denotes_write v) allBlank_nil allBlank_nil
  | v :: w :: vs, _ =>
    .moreItems [] [] (denotes_write v)
      (denotes_writeItems (w :: vs) (List.cons_ne_nil w vs)) allBlank_nil allBlank_nil

theorem denotes_writeFields : ∀ fs : List (String × Value), fs ≠ [] →
    Denotes (.fields fs) (writeFields fs)
  | [], h => absurd rfl h
  | [(name, v)], _ => by
    have hfield := Denotes.field [] [] [] (spells_flatMap name.toList) (denotes_write v)
      allBlank_nil allBlank_nil allBlank_nil
    simpa [writeFields, writeMoreFields, writeText] using hfield
  | (name, v) :: f :: fs, _ => by
    have hfield := Denotes.moreFields [] [] [] (spells_flatMap name.toList) (denotes_write v)
      (denotes_writeFields (f :: fs) (List.cons_ne_nil f fs)) allBlank_nil allBlank_nil
      allBlank_nil
    simpa [writeFields, writeMoreFields, writeText] using hfield

end

mutual

theorem denotes_writeTall : ∀ (depth : Nat) (v : Value), Denotes (.value v) (v.writeTall depth)
  | _, .null => .null
  | _, .bool true => .true
  | _, .bool false => .false
  | _, .num n => .num n
  | _, .str s => .str (spells_flatMap s.toList)
  | _, .arr [] => .emptyList allBlank_nil
  | depth, .arr (v :: vs) =>
    .list (denotes_writeTallItems depth (v :: vs) (List.cons_ne_nil v vs))
  | _, .obj [] => .emptyObject allBlank_nil
  | depth, .obj (f :: fs) =>
    .object (denotes_writeTallFields depth (f :: fs) (List.cons_ne_nil f fs))

/-- The line on which the closing bracket stands belongs to the blanks behind the last item. -/
theorem denotes_writeTallItems : ∀ (depth : Nat) (vs : List Value), vs ≠ [] →
    Denotes (.items vs) (writeTallItems (depth + 1) vs ++ newLine depth)
  | _, [], h => absurd rfl h
  | depth, [v], _ => by
    have hitem := Denotes.item (newLine (depth + 1)) (newLine depth)
      (denotes_writeTall (depth + 1) v) (allBlank_newLine _) (allBlank_newLine _)
    simpa [writeTallItems] using hitem
  | depth, v :: w :: vs, _ => by
    have hitem := Denotes.moreItems (newLine (depth + 1)) [] (denotes_writeTall (depth + 1) v)
      (denotes_writeTallItems depth (w :: vs) (List.cons_ne_nil w vs)) (allBlank_newLine _)
      allBlank_nil
    simpa [writeTallItems] using hitem

theorem denotes_writeTallFields : ∀ (depth : Nat) (fs : List (String × Value)), fs ≠ [] →
    Denotes (.fields fs) (writeTallFields (depth + 1) fs ++ newLine depth)
  | _, [], h => absurd rfl h
  | depth, [(name, v)], _ => by
    have hfield := Denotes.field (newLine (depth + 1)) [' '] (newLine depth)
      (spells_flatMap name.toList) (denotes_writeTall (depth + 1) v) (allBlank_newLine _)
      allBlank_space (allBlank_newLine _)
    simpa [writeTallFields, writeText] using hfield
  | depth, (name, v) :: f :: fs, _ => by
    have hfield := Denotes.moreFields (newLine (depth + 1)) [' '] []
      (spells_flatMap name.toList) (denotes_writeTall (depth + 1) v)
      (denotes_writeTallFields depth (f :: fs) (List.cons_ne_nil f fs)) (allBlank_newLine _)
      allBlank_space allBlank_nil
    simpa [writeTallFields, writeText] using hfield

end

/-! ## The parts of a document -/

theorem skipBlank_append {b : List Char} (hb : AllBlank b) (s : List Char) :
    skipBlank (b ++ s) = skipBlank s := by
  rw [skipBlank, skipBlank, List.dropWhile_append_of_pos hb]

theorem EndsNumber.blank {b : List Char} (hb : AllBlank b) {rest : List Char}
    (h : EndsNumber rest) : EndsNumber (b ++ rest) := by
  cases b with
  | nil => exact h
  | cons c b =>
    intro d hd
    obtain rfl := Option.some.inj hd
    have hblank := hb c List.mem_cons_self
    refine ⟨?_, ?_, ?_, ?_⟩
    · cases hdigit : c.isDigit with
      | false => rfl
      | true => rw [(digit_cases hdigit).2] at hblank; cases hblank
    all_goals
      rintro rfl
      exact absurd hblank (by decide)

theorem endsNumber_mark {c : Char} (h : c = ',' ∨ c = ']' ∨ c = '}') (rest : List Char) :
    EndsNumber (c :: rest) := by
  intro d hd
  obtain rfl := Option.some.inj hd
  rcases h with rfl | rfl | rfl <;> decide

theorem isFractional_of_endsNumber {rest : List Char} (h : EndsNumber rest) :
    isFractional rest = false := by
  cases rest with
  | nil => rfl
  | cons c rest =>
    obtain ⟨-, hpoint, he, hE⟩ := h c rfl
    simp [isFractional, hpoint, he, hE]

theorem readDigits_toDigits (n : Nat) {rest : List Char} (h : EndsNumber rest) :
    readDigits (Nat.toDigits 10 n ++ rest) = .ok (n, rest) := by
  have hdigits : ∀ c ∈ Nat.toDigits 10 n, c.isDigit = true := fun c hc =>
    isDigit_of_mem_toDigits hc
  have hstop := h.takeWhile_dropWhile
  have hvalue := Decimal.valueOf_toDigits n
  have hfraction := isFractional_of_endsNumber h
  rcases Nat.eq_zero_or_pos n with rfl | hpos
  · show readDigits ('0' :: rest) = _
    simp [readDigits, hstop.1, hstop.2, hfraction, show '0'.isDigit = true from rfl]
    rfl
  · obtain ⟨c, s, hs, hc, -⟩ := head?_toDigits hpos
    rw [readDigits, List.takeWhile_append_of_pos hdigits, List.dropWhile_append_of_pos hdigits,
      hstop.1, hstop.2, List.append_nil]
    rw [hs] at hvalue ⊢
    simp [hc, hfraction, hvalue]

theorem readWhole_writeInt (n : Int) {rest : List Char} (h : EndsNumber rest) :
    readWhole (writeInt n ++ rest) = .ok (n, rest) := by
  have hread := readDigits_toDigits n.natAbs h
  unfold writeInt
  split
  case isTrue hneg =>
    have hvalue : -(n.natAbs : Int) = n := by omega
    rw [List.cons_append, readWhole, hread, changeValue, hvalue]
  case isFalse hpos =>
    have hvalue : (n.natAbs : Int) = n := by omega
    obtain ⟨c, s, hs, hdigit⟩ := exists_toDigits n.natAbs
    rw [hs, List.cons_append] at hread ⊢
    rw [readWhole, hread, changeValue, hvalue]
    intro s' heq
    exact (digit_cases hdigit).1 (List.cons.inj heq).1

/-- A number begins with a digit or with a minus sign. -/
theorem exists_writeInt (n : Int) :
    ∃ c s, writeInt n = c :: s ∧ (c = '-' ∨ c.isDigit = true) := by
  obtain ⟨c, s, hs, hdigit⟩ := exists_toDigits n.natAbs
  unfold writeInt
  split
  · exact ⟨_, _, rfl, .inl rfl⟩
  · exact ⟨c, s, hs, .inr hdigit⟩

theorem ne_of_digit_or_minus {c d : Char} (hc : c = '-' ∨ c.isDigit = true) (hminus : d ≠ '-')
    (hdigit : d.isDigit = false) : c ≠ d := by
  intro heq
  subst heq
  rcases hc with h | h
  · exact hminus h
  · rw [hdigit] at h
    cases h

theorem readScalar_writeInt (n : Int) {rest : List Char} (h : EndsNumber rest) :
    readScalar (writeInt n ++ rest) = .ok (.num n, rest) := by
  have hwhole := readWhole_writeInt n h
  obtain ⟨c, s, hs, hc⟩ := exists_writeInt n
  rw [hs, List.cons_append] at hwhole ⊢
  unfold readScalar
  split
  case h_1 heq => cases heq
  case h_6 => rw [hwhole, changeValue]
  all_goals
    next heq =>
      exact absurd (List.cons.inj heq).1 (ne_of_digit_or_minus hc (by decide) (by decide))

/-- **A text is read from whatever spells it.** -/
theorem Spells.readText {s t : List Char} (h : Spells s t) (rest : List Char) :
    readText (t ++ '"' :: rest) = .ok (s, rest) := by
  induction h with
  | nil => simp [Json.readText]
  | plain hquote hslash hcontrol _ ih =>
    rw [List.cons_append, readText_plain hquote hslash (by simpa [isControl] using hcontrol), ih]
    rfl
  | @short c e s t he _ ih =>
    have hcode : e ≠ 'u' := by
      intro heq
      rw [heq, show shortEscape? 'u' = none from rfl] at he
      cases he
    simp [Json.readText, hcode, he, ih, consChar]
  | code d₁ d₂ d₃ d₄ hn hleading htrailing _ ih =>
    simp [Json.readText, hn, hleading, htrailing, ih, consChar]

theorem readName_of_spells {name : String} {n : List Char} (h : Spells name.toList n)
    (rest : List Char) : readName ('"' :: (n ++ '"' :: ':' :: rest)) = .ok (name, rest) := by
  have hcolon : expectColon (':' :: rest) = .ok rest := by
    rw [expectColon, skipBlank_cons (by decide)]
    rfl
  simp only [readName, readString, skipBlank_cons (c := '"') (by decide), h.readText, hcolon,
    String.ofList_toList]

/-! ## Blanks in front -/

theorem skipBlank_skipBlank (s : List Char) : skipBlank (skipBlank s) = skipBlank s :=
  List.dropWhile_idempotent isBlank s

theorem readValue_skipBlank (fuel : Nat) (s : List Char) :
    readValue fuel (skipBlank s) = readValue fuel s := by
  cases fuel with
  | zero => rfl
  | succ fuel => simp only [readValue, skipBlank_skipBlank]

theorem readItems_skipBlank (fuel : Nat) (s : List Char) :
    readItems fuel (skipBlank s) = readItems fuel s := by
  cases fuel with
  | zero => rfl
  | succ fuel => simp only [readItems, readValue_skipBlank]

theorem readFields_skipBlank (fuel : Nat) (s : List Char) :
    readFields fuel (skipBlank s) = readFields fuel s := by
  cases fuel with
  | zero => rfl
  | succ fuel => simp only [readFields, readName, readString, skipBlank_skipBlank]

/-- A character with which a part may begin, no blank and no bracket that closes one. -/
def IsOpening (c : Char) : Prop := isBlank c = false ∧ c ≠ ']' ∧ c ≠ '}'

theorem Denotes.exists_cons {v : Value} {s : List Char} (h : Denotes (.value v) s) :
    ∃ c t, IsOpening c ∧ s = c :: t := by
  cases h with
  | num n =>
    obtain ⟨c, t, ht, hc⟩ := exists_writeInt n
    refine ⟨c, t, ⟨?_, ?_, ?_⟩, ht⟩
    · rcases hc with rfl | hdigit
      · rfl
      · exact (digit_cases hdigit).2
    · exact ne_of_digit_or_minus hc (by decide) (by decide)
    · exact ne_of_digit_or_minus hc (by decide) (by decide)
  | _ => exact ⟨_, _, ⟨rfl, by decide, by decide⟩, rfl⟩

theorem skipBlank_opening {b : List Char} (hb : AllBlank b) {c : Char} (hc : IsOpening c)
    (s : List Char) : skipBlank (b ++ c :: s) = c :: s := by
  rw [skipBlank_append hb, skipBlank_cons hc.1]

/-- Behind the blanks in front of a part stands a character with which a part may begin. -/
theorem Denotes.exists_opening {p : Part} {s : List Char} (h : Denotes p s) (rest : List Char) :
    ∃ c t, IsOpening c ∧ skipBlank (s ++ rest) = c :: t := by
  have hquote : IsOpening '"' := ⟨rfl, by decide, by decide⟩
  cases p with
  | value v =>
    obtain ⟨c, t, hc, rfl⟩ := h.exists_cons
    exact ⟨c, t ++ rest, hc, skipBlank_cons hc.1 _⟩
  | items vs =>
    cases h with
    | item b b' h hb _ =>
      obtain ⟨c, t, hc, rfl⟩ := h.exists_cons
      exact ⟨c, _, hc, by rw [List.append_assoc]; exact skipBlank_opening hb hc _⟩
    | moreItems b b' h _ hb _ =>
      obtain ⟨c, t, hc, rfl⟩ := h.exists_cons
      exact ⟨c, _, hc, by rw [List.append_assoc]; exact skipBlank_opening hb hc _⟩
  | fields fs =>
    cases h with
    | field b b' b'' _ _ hb _ _ =>
      exact ⟨'"', _, hquote, by rw [List.append_assoc]; exact skipBlank_opening hb hquote _⟩
    | moreFields b b' b'' _ _ _ hb _ _ =>
      exact ⟨'"', _, hquote, by rw [List.append_assoc]; exact skipBlank_opening hb hquote _⟩

/-! ## Values with parts -/

/-- The part is read from the text, whatever stands behind it: behind a value what ends a number,
behind the parts of a list or an object its bracket. -/
def Part.ReadsFrom : Part → List Char → Prop
  | .value v, s => ∀ {fuel : Nat} {b rest : List Char}, s.length ≤ fuel → AllBlank b →
      EndsNumber rest → readValue fuel (b ++ (s ++ rest)) = .ok (v, rest)
  | .items vs, t => ∀ {fuel : Nat} {rest : List Char}, t.length < fuel →
      readItems fuel (t ++ ']' :: rest) = .ok (vs, rest)
  | .fields fs, t => ∀ {fuel : Nat} {rest : List Char}, t.length < fuel →
      readFields fuel (t ++ '}' :: rest) = .ok (fs, rest)

theorem readsFrom_scalar {v : Value} {c : Char} {s : List Char} (hc : IsOpening c)
    (hlist : c ≠ '[') (hobject : c ≠ '{')
    (hread : ∀ {rest : List Char}, EndsNumber rest →
      readScalar (c :: (s ++ rest)) = .ok (v, rest)) :
    (Part.value v).ReadsFrom (c :: s) := by
  intro fuel b rest hfuel hb hrest
  obtain ⟨fuel, rfl⟩ : ∃ n, fuel = n + 1 := Nat.exists_eq_succ_of_ne_zero (by grind)
  rw [readValue, List.cons_append, skipBlank_opening hb hc]
  split
  · next heq => exact absurd (List.cons.inj heq).1 hlist
  · next heq => exact absurd (List.cons.inj heq).1 hobject
  · exact hread hrest

theorem readsFrom_emptyList {b : List Char} (hb : AllBlank b) :
    (Part.value (.arr [])).ReadsFrom ('[' :: (b ++ [']'])) := by
  intro fuel b' rest hfuel hb' hrest
  obtain ⟨fuel, rfl⟩ : ∃ n, fuel = n + 1 := Nat.exists_eq_succ_of_ne_zero (by grind)
  rw [readValue, skipBlank_append hb', List.cons_append, skipBlank_cons (by decide)]
  simp [skipBlank_append hb, skipBlank_cons (c := ']') (by decide)]

theorem readsFrom_emptyObject {b : List Char} (hb : AllBlank b) :
    (Part.value (.obj [])).ReadsFrom ('{' :: (b ++ ['}'])) := by
  intro fuel b' rest hfuel hb' hrest
  obtain ⟨fuel, rfl⟩ : ∃ n, fuel = n + 1 := Nat.exists_eq_succ_of_ne_zero (by grind)
  rw [readValue, skipBlank_append hb', List.cons_append, skipBlank_cons (by decide)]
  simp [skipBlank_append hb, skipBlank_cons (c := '}') (by decide)]

theorem readsFrom_list {vs : List Value} {t : List Char} (h : Denotes (.items vs) t)
    (ih : (Part.items vs).ReadsFrom t) :
    (Part.value (.arr vs)).ReadsFrom ('[' :: (t ++ [']'])) := by
  intro fuel b rest hfuel hb hrest
  simp only [List.length_cons, List.length_append, List.length_nil] at hfuel
  obtain ⟨fuel, rfl⟩ : ∃ n, fuel = n + 1 := Nat.exists_eq_succ_of_ne_zero (by omega)
  have hitems : readItems fuel (t ++ ']' :: rest) = .ok (vs, rest) := ih (by omega)
  rw [readValue, skipBlank_append hb, List.cons_append, skipBlank_cons (by decide),
    List.append_assoc]
  obtain ⟨c, t', hc, ht'⟩ := h.exists_opening (']' :: rest)
  rw [← readItems_skipBlank, ht'] at hitems
  simp [ht', hitems, changeValue, hc.2.1]

theorem readsFrom_object {fs : List (String × Value)} {t : List Char} (h : Denotes (.fields fs) t)
    (ih : (Part.fields fs).ReadsFrom t) :
    (Part.value (.obj fs)).ReadsFrom ('{' :: (t ++ ['}'])) := by
  intro fuel b rest hfuel hb hrest
  simp only [List.length_cons, List.length_append, List.length_nil] at hfuel
  obtain ⟨fuel, rfl⟩ : ∃ n, fuel = n + 1 := Nat.exists_eq_succ_of_ne_zero (by omega)
  have hfields : readFields fuel (t ++ '}' :: rest) = .ok (fs, rest) := ih (by omega)
  rw [readValue, skipBlank_append hb, List.cons_append, skipBlank_cons (by decide),
    List.append_assoc]
  obtain ⟨c, t', hc, ht'⟩ := h.exists_opening ('}' :: rest)
  rw [← readFields_skipBlank, ht'] at hfields
  simp [ht', hfields, changeValue, hc.2.2]

theorem readsFrom_item {v : Value} {s b b' : List Char} (ih : (Part.value v).ReadsFrom s)
    (hb : AllBlank b) (hb' : AllBlank b') : (Part.items [v]).ReadsFrom (b ++ (s ++ b')) := by
  intro fuel rest hfuel
  simp only [List.length_append] at hfuel
  obtain ⟨fuel, rfl⟩ : ∃ n, fuel = n + 1 := Nat.exists_eq_succ_of_ne_zero (by omega)
  have hvalue : readValue fuel (b ++ (s ++ (b' ++ ']' :: rest))) = .ok (v, b' ++ ']' :: rest) :=
    ih (by omega) hb ((endsNumber_mark (by simp) rest).blank hb')
  simp only [List.append_assoc, readItems, hvalue, skipBlank_append hb',
    skipBlank_cons (c := ']') (by decide)]

theorem readsFrom_moreItems {v : Value} {vs : List Value} {s t b b' : List Char}
    (ih : (Part.value v).ReadsFrom s) (ihs : (Part.items vs).ReadsFrom t) (hb : AllBlank b)
    (hb' : AllBlank b') : (Part.items (v :: vs)).ReadsFrom (b ++ (s ++ (b' ++ ',' :: t))) := by
  intro fuel rest hfuel
  simp only [List.length_append, List.length_cons] at hfuel
  obtain ⟨fuel, rfl⟩ : ∃ n, fuel = n + 1 := Nat.exists_eq_succ_of_ne_zero (by omega)
  have hvalue : readValue fuel (b ++ (s ++ (b' ++ ',' :: (t ++ ']' :: rest)))) =
      .ok (v, b' ++ ',' :: (t ++ ']' :: rest)) :=
    ih (by omega) hb ((endsNumber_mark (by simp) _).blank hb')
  have hitems : readItems fuel (t ++ ']' :: rest) = .ok (vs, rest) := ihs (by omega)
  simp only [List.append_assoc, List.cons_append, readItems, hvalue, skipBlank_append hb',
    skipBlank_cons (c := ',') (by decide), hitems, changeValue]

theorem readsFrom_field {name : String} {v : Value} {n s b b' b'' : List Char}
    (hname : Spells name.toList n) (ih : (Part.value v).ReadsFrom s) (hb : AllBlank b)
    (hb' : AllBlank b') (hb'' : AllBlank b'') :
    (Part.fields [(name, v)]).ReadsFrom (b ++ '"' :: (n ++ '"' :: ':' :: (b' ++ (s ++ b'')))) := by
  intro fuel rest hfuel
  simp only [List.length_append, List.length_cons] at hfuel
  obtain ⟨fuel, rfl⟩ : ∃ n, fuel = n + 1 := Nat.exists_eq_succ_of_ne_zero (by omega)
  have hvalue : readValue fuel (b' ++ (s ++ (b'' ++ '}' :: rest))) = .ok (v, b'' ++ '}' :: rest) :=
    ih (by omega) hb' ((endsNumber_mark (by simp) rest).blank hb'')
  rw [← readFields_skipBlank, List.append_assoc, skipBlank_append hb, readFields_skipBlank]
  simp only [List.append_assoc, List.cons_append, readFields, readName_of_spells hname, hvalue,
    skipBlank_append hb'', skipBlank_cons (c := '}') (by decide)]

theorem readsFrom_moreFields {name : String} {v : Value} {fs : List (String × Value)}
    {n s t b b' b'' : List Char} (hname : Spells name.toList n) (ih : (Part.value v).ReadsFrom s)
    (ihs : (Part.fields fs).ReadsFrom t) (hb : AllBlank b) (hb' : AllBlank b')
    (hb'' : AllBlank b'') :
    (Part.fields ((name, v) :: fs)).ReadsFrom
      (b ++ '"' :: (n ++ '"' :: ':' :: (b' ++ (s ++ (b'' ++ ',' :: t))))) := by
  intro fuel rest hfuel
  simp only [List.length_append, List.length_cons] at hfuel
  obtain ⟨fuel, rfl⟩ : ∃ n, fuel = n + 1 := Nat.exists_eq_succ_of_ne_zero (by omega)
  have hvalue : readValue fuel (b' ++ (s ++ (b'' ++ ',' :: (t ++ '}' :: rest)))) =
      .ok (v, b'' ++ ',' :: (t ++ '}' :: rest)) :=
    ih (by omega) hb' ((endsNumber_mark (by simp) _).blank hb'')
  have hfields : readFields fuel (t ++ '}' :: rest) = .ok (fs, rest) := ihs (by omega)
  rw [← readFields_skipBlank, List.append_assoc, skipBlank_append hb, readFields_skipBlank]
  simp only [List.append_assoc, List.cons_append, readFields, readName_of_spells hname, hvalue,
    skipBlank_append hb'', skipBlank_cons (c := ',') (by decide), hfields, changeValue]

/-- **Every written form of a part is read as that part**, wherever blanks stand in it. -/
theorem Denotes.readsFrom {p : Part} {s : List Char} (h : Denotes p s) : p.ReadsFrom s := by
  induction h with
  | null => exact readsFrom_scalar ⟨rfl, by decide, by decide⟩ (by decide) (by decide) fun _ => rfl
  | true => exact readsFrom_scalar ⟨rfl, by decide, by decide⟩ (by decide) (by decide) fun _ => rfl
  | false => exact readsFrom_scalar ⟨rfl, by decide, by decide⟩ (by decide) (by decide) fun _ => rfl
  | num n =>
    obtain ⟨c, t, ht, hc⟩ := exists_writeInt n
    obtain ⟨c', t', hopening, ht'⟩ := (Denotes.num n).exists_cons
    obtain ⟨rfl, rfl⟩ := List.cons.inj (ht.symm.trans ht')
    rw [ht]
    refine readsFrom_scalar hopening (ne_of_digit_or_minus hc (by decide) (by decide))
      (ne_of_digit_or_minus hc (by decide) (by decide)) fun hrest => ?_
    rw [← List.cons_append, ← ht]
    exact readScalar_writeInt n hrest
  | str h =>
    refine readsFrom_scalar ⟨rfl, by decide, by decide⟩ (by decide) (by decide) fun {rest} _ => ?_
    rw [List.append_assoc, readScalar, List.singleton_append, h.readText, changeValue,
      String.ofList_toList]
  | emptyList hb => exact readsFrom_emptyList hb
  | list h ih => exact readsFrom_list h ih
  | emptyObject hb => exact readsFrom_emptyObject hb
  | object h ih => exact readsFrom_object h ih
  | item b b' _ hb hb' ih => exact readsFrom_item ih hb hb'
  | moreItems b b' _ _ hb hb' ih ihs => exact readsFrom_moreItems ih ihs hb hb'
  | field b b' b'' hname _ hb hb' hb'' ih => exact readsFrom_field hname ih hb hb' hb''
  | moreFields b b' b'' hname _ _ hb hb' hb'' ih ihs =>
    exact readsFrom_moreFields hname ih ihs hb hb' hb''

/-! ## Whole documents -/

theorem ofText_of_denotes {v : Value} {s : List Char} (h : Denotes (.value v) s) :
    Value.ofText (String.ofList s) = .ok v := by
  have hread : readValue (s.length + 1) ([] ++ (s ++ [])) = .ok (v, []) :=
    h.readsFrom (Nat.le_succ s.length) allBlank_nil endsNumber_nil
  rw [List.nil_append, List.append_nil] at hread
  refine expectEnd_of_nil ?_
  rw [String.length_ofList, String.toList_ofList]
  exact hread

/-- A text denotes one value at most. -/
theorem denotes_unique {v w : Value} {s : List Char} (hv : Denotes (.value v) s)
    (hw : Denotes (.value w) s) : v = w :=
  Except.ok.inj ((ofText_of_denotes hv).symm.trans (ofText_of_denotes hw))

theorem denotes_compact (v : Value) : Denotes (.value v) v.compact.toList := by
  rw [Value.compact, String.toList_ofList]
  exact denotes_write v

theorem denotes_tall (v : Value) : Denotes (.value v) v.tall.toList := by
  rw [Value.tall, String.toList_ofList]
  exact denotes_writeTall 0 v

/-- **Every value is what its text is read as**, the compact one and the tall one. -/
theorem ofText_text (v : Value) : Value.ofText v.compact = .ok v ∧ Value.ofText v.tall = .ok v :=
  ⟨ofText_of_denotes (denotes_write v), ofText_of_denotes (denotes_writeTall 0 v)⟩

end Admission.Json
