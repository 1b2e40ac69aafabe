import Admission.Text.Hexadecimal
import Admission.Text.Quoted
import Mathlib.Data.List.Basic
import Mathlib.Tactic.IntervalCases

/-!
# Quoted texts can be read back

A quoted text begins and ends with a quotation mark, and what stands between the marks is made so
that nobody has to know in advance where it ends:

> the written forms of two different characters never agree on all of the shorter one, and none
> begins with a quotation mark.

So the end of a quoted text is seen when it comes, whatever follows it
(`Text.quote_append_inj`). And as only characters that are drawn stand in it
(`Text.isShown_of_mem_quote`), it stays on its line.
-/

set_option autoImplicit false

namespace Admission.Text

/-! ## Where a part ends -/

section Ends

variable {α : Type} {l l' x y : List α}

/-- A part of a text is told from what follows by a property that its characters have and that the
next one has not. -/
theorem append_inj_of_class {p : α → Bool} (hl : ∀ a ∈ l, p a = true) (hl' : ∀ a ∈ l', p a = true)
    (hx : ∀ a ∈ x.head?, p a = false) (hy : ∀ a ∈ y.head?, p a = false) (h : l ++ x = l' ++ y) :
    l = l' ∧ x = y := by
  have hstop : ∀ {z : List α}, (∀ a ∈ z.head?, p a = false) → z.takeWhile p = [] := by
    intro z hz
    cases z with
    | nil => rfl
    | cons a z => rw [List.takeWhile_cons, if_neg (by simp [hz a rfl])]
  have htaken := congrArg (List.takeWhile p) h
  rw [List.takeWhile_append_of_pos hl, List.takeWhile_append_of_pos hl', hstop hx, hstop hy,
    List.append_nil, List.append_nil] at htaken
  subst htaken
  exact ⟨rfl, List.append_cancel_left h⟩

/-- A part of a text is told from what follows by a character that does not stand in it. -/
theorem append_inj_of_stop [DecidableEq α] {stop : α} (hl : stop ∉ l) (hl' : stop ∉ l')
    (h : l ++ stop :: x = l' ++ stop :: y) : l = l' ∧ x = y := by
  have hother : ∀ {z : List α}, stop ∉ z → ∀ a ∈ z, (decide (a ≠ stop)) = true := by
    intro z hz a ha
    exact decide_eq_true fun heq => hz (heq ▸ ha)
  obtain ⟨heq, hrest⟩ := append_inj_of_class (hother hl) (hother hl') (by simp) (by simp) h
  exact ⟨heq, (List.cons.inj hrest).2⟩

end Ends

/-- A word without spaces, letter by letter. -/
theorem shown_of_all {l : List Char} (h : (l.all fun a => isShown a && a != ' ') = true) :
    ∀ a ∈ l, isShown a = true ∧ a ≠ ' ' := by
  simpa only [List.all_eq_true, Bool.and_eq_true, bne_iff_ne] using h

/-! ## Digits -/

theorem exists_digitChar_of_mem_toDigits {b n : Nat} (hb : 1 < b) {c : Char}
    (h : c ∈ Nat.toDigits b n) : ∃ d < b, c = Nat.digitChar d := by
  induction n using Nat.strongRecOn with
  | ind n ih =>
    rw [Nat.toDigits_eq_if hb] at h
    split at h
    case isTrue hlt => exact ⟨n, hlt, List.mem_singleton.mp h⟩
    case isFalse hge =>
      rcases List.mem_append.mp h with h | h
      · exact ih (n / b) (Nat.div_lt_self (by omega) hb) h
      · exact ⟨n % b, Nat.mod_lt n (by omega), List.mem_singleton.mp h⟩

/-- Digits of a base up to sixteen are drawn, and none is a brace. -/
theorem isShown_of_mem_toDigits {b n : Nat} (hb : 1 < b) (hb' : b ≤ 16) {c : Char}
    (h : c ∈ Nat.toDigits b n) : isShown c = true ∧ c ≠ '}' := by
  obtain ⟨d, hd, rfl⟩ := exists_digitChar_of_mem_toDigits hb h
  have hd' : d < 16 := hd.trans_le hb'
  clear h hd
  decide +revert

theorem hexValue?_digitChar {d : Nat} (h : d < 16) : hexValue? (Nat.digitChar d) = some d := by
  decide +revert

/-- A number is read back from its hexadecimal digits. -/
theorem readHex?_toDigits (n : Nat) : readHex? (Nat.toDigits 16 n) = some n := by
  induction n using Nat.strongRecOn with
  | ind n ih =>
    rw [Nat.toDigits_eq_if (by decide)]
    split
    case isTrue hlt =>
      rw [← List.nil_append [_], readHex?_concat, readHex?_nil, hexValue?_digitChar hlt]
      simp
    case isFalse hge =>
      rw [readHex?_concat, ih (n / 16) (by omega), hexValue?_digitChar (Nat.mod_lt n (by decide))]
      simp only [Option.map_some, Option.bind_some, Option.some.injEq]
      omega

theorem codePointEscape_append_inj {c d : Char} {x y : List Char}
    (h : codePointEscape c ++ x = codePointEscape d ++ y) : c = d ∧ x = y := by
  have hbrace : ∀ n, '}' ∉ Nat.toDigits 16 n := fun n hmem =>
    (isShown_of_mem_toDigits (by decide) (by decide) hmem).2 rfl
  simp only [codePointEscape, List.cons_append, List.append_assoc, List.nil_append, List.cons.injEq,
    true_and] at h
  obtain ⟨hdigits, hrest⟩ := append_inj_of_stop (hbrace _) (hbrace _) h
  have hcode := congrArg readHex? hdigits
  rw [readHex?_toDigits, readHex?_toDigits, Option.some.injEq] at hcode
  exact ⟨Char.toNat_inj.mp hcode, hrest⟩

/-! ## One character -/

/-- The characters that have a short form, and what follows the backslash in it. -/
def shortForms : List (Char × Char) :=
  [('"', '"'), ('\\', '\\'), ('\n', 'n'), ('\r', 'r'), ('\t', 't'), ('\x00', '0')]

/-- **The three ways to write a character**: as it is, by a short form, or by its code point. -/
theorem quoteChar_cases (c : Char) :
    (c ≠ '"' ∧ c ≠ '\\' ∧ isShown c = true ∧ quoteChar c = [c]) ∨
      (∃ e, (c, e) ∈ shortForms ∧ quoteChar c = ['\\', e]) ∨
      quoteChar c = codePointEscape c := by
  unfold quoteChar
  split_ifs with h₁ h₂ h₃ h₄ h₅ h₆ hshown
  · subst h₁; exact Or.inr (Or.inl ⟨_, by decide, rfl⟩)
  · subst h₂; exact Or.inr (Or.inl ⟨_, by decide, rfl⟩)
  · subst h₃; exact Or.inr (Or.inl ⟨_, by decide, rfl⟩)
  · subst h₄; exact Or.inr (Or.inl ⟨_, by decide, rfl⟩)
  · subst h₅; exact Or.inr (Or.inl ⟨_, by decide, rfl⟩)
  · subst h₆; exact Or.inr (Or.inl ⟨_, by decide, rfl⟩)
  · exact Or.inl ⟨h₁, h₂, hshown, rfl⟩
  · exact Or.inr (Or.inr rfl)

theorem eq_of_shortForms : ∀ p ∈ shortForms, ∀ q ∈ shortForms, p.2 = q.2 → p.1 = q.1 := by decide

theorem shortForms_ne_u : ∀ p ∈ shortForms, p.2 ≠ 'u' := by decide

theorem isShown_of_shortForms : ∀ p ∈ shortForms, isShown p.2 = true := by decide

/-- The second character of an escape tells which of the two kinds it is. -/
theorem short_append_ne_codePointEscape_append {p : Char × Char} (hp : p ∈ shortForms) (d : Char)
    (x y : List Char) : '\\' :: p.2 :: x ≠ codePointEscape d ++ y := by
  simp [codePointEscape, shortForms_ne_u p hp]

/-- **No written form is the beginning of another one.** -/
theorem quoteChar_append_inj {c d : Char} {x y : List Char}
    (h : quoteChar c ++ x = quoteChar d ++ y) : c = d ∧ x = y := by
  rcases quoteChar_cases c with ⟨-, hc, -, hc'⟩ | ⟨e, he, hc'⟩ | hc' <;>
    rcases quoteChar_cases d with ⟨-, hd, -, hd'⟩ | ⟨f, hf, hd'⟩ | hd' <;>
    rw [hc', hd'] at h
  · exact List.cons.inj h
  · exact absurd (List.cons.inj h).1 hc
  · exact absurd (List.cons.inj h).1 hc
  · exact absurd (List.cons.inj h).1.symm hd
  · obtain ⟨hef, hrest⟩ := List.cons.inj (List.cons.inj h).2
    exact ⟨eq_of_shortForms _ he _ hf hef, hrest⟩
  · exact absurd h (short_append_ne_codePointEscape_append he d x y)
  · exact absurd (List.cons.inj h).1.symm hd
  · exact absurd h.symm (short_append_ne_codePointEscape_append hf c y x)
  · exact codePointEscape_append_inj h

theorem quoteChar_append_ne (c : Char) (x y : List Char) : quoteChar c ++ x ≠ '"' :: y := by
  rcases quoteChar_cases c with ⟨hc, -, -, hc'⟩ | ⟨e, -, hc'⟩ | hc' <;> rw [hc']
  · simp [hc]
  · simp
  · simp [codePointEscape]

/-! ## Texts -/

theorem quoteBody_append_inj {s t x y : List Char}
    (h : quoteBody s ++ '"' :: x = quoteBody t ++ '"' :: y) : s = t ∧ x = y := by
  induction s generalizing t with
  | nil =>
    cases t with
    | nil => exact ⟨rfl, (List.cons.inj h).2⟩
    | cons d t =>
      rw [quoteBody_cons, List.append_assoc] at h
      exact absurd h.symm (quoteChar_append_ne d _ _)
  | cons c s ih =>
    rw [quoteBody_cons, List.append_assoc] at h
    cases t with
    | nil => exact absurd h (quoteChar_append_ne c _ _)
    | cons d t =>
      rw [quoteBody_cons, List.append_assoc] at h
      obtain ⟨rfl, hrest⟩ := quoteChar_append_inj h
      obtain ⟨rfl, hxy⟩ := ih hrest
      exact ⟨rfl, hxy⟩

/-- **A quoted text tells the text and where it ends.** -/
theorem quote_append_inj {s t : String} {x y : List Char}
    (h : (quote s).toList ++ x = (quote t).toList ++ y) : s = t ∧ x = y := by
  simp only [quote, String.toList_ofList, List.cons_append, List.append_assoc, List.nil_append,
    List.cons.injEq, true_and] at h
  obtain ⟨hst, hxy⟩ := quoteBody_append_inj h
  exact ⟨String.toList_inj.mp hst, hxy⟩

theorem isShown_of_mem_quoteChar {c d : Char} (h : d ∈ quoteChar c) : isShown d = true := by
  rcases quoteChar_cases c with ⟨-, -, hc, hc'⟩ | ⟨e, he, hc'⟩ | hc' <;> rw [hc'] at h
  · obtain rfl := List.mem_singleton.mp h
    exact hc
  · rcases List.mem_pair.mp h with rfl | rfl
    · decide
    · exact isShown_of_shortForms _ he
  · simp only [codePointEscape, List.mem_cons, List.mem_append, List.not_mem_nil, or_false] at h
    rcases h with rfl | rfl | rfl | h | rfl
    · decide
    · decide
    · decide
    · exact (isShown_of_mem_toDigits (by decide) (by decide) h).1
    · decide

/-- In a quoted text there are only characters that are drawn. -/
theorem isShown_of_mem_quote {s : String} {c : Char} (h : c ∈ (quote s).toList) :
    isShown c = true := by
  simp only [quote, String.toList_ofList, List.mem_cons, List.mem_append, List.not_mem_nil,
    or_false] at h
  rcases h with rfl | h | rfl
  · decide
  · obtain ⟨d, -, hd⟩ := List.mem_flatMap.mp h
    exact isShown_of_mem_quoteChar hd
  · decide

end Admission.Text
