/-!
# Cutting a text at a byte

A place in a text can be given as the number of bytes that the text before it takes in UTF-8. Not
every number is such a place: a character can take up to four bytes, and there is nothing to cut
inside of one. Behind a beginning of a text, however, there is always a place
(`splitAtByte?_byteLength`).
-/

set_option autoImplicit false

namespace Admission.Text

/-- The number of bytes of a text. -/
def byteLength : List Char → Nat
  | [] => 0
  | c :: s => c.utf8Size + byteLength s

/-- A text before and behind a number of bytes, unless that falls into a character or beyond the
end. -/
def splitAtByte? : List Char → Nat → Option (List Char × List Char)
  | s, 0 => some ([], s)
  | [], _ + 1 => none
  | c :: s, n + 1 =>
    if c.utf8Size ≤ n + 1 then
      (splitAtByte? s (n + 1 - c.utf8Size)).map fun (front, rest) => (c :: front, rest)
    else none

theorem splitAtByte?_byteLength (s rest : List Char) :
    splitAtByte? (s ++ rest) (byteLength s) = some (s, rest) := by
  induction s with
  | nil => cases rest <;> rfl
  | cons c s ih =>
    have hc : 0 < c.utf8Size := Char.utf8Size_pos c
    obtain ⟨k, hk⟩ : ∃ k, c.utf8Size + byteLength s = k + 1 := ⟨_, (Nat.succ_pred (by omega)).symm⟩
    rw [List.cons_append, byteLength, hk, splitAtByte?, if_pos (by omega),
      show k + 1 - c.utf8Size = byteLength s by omega, ih]
    rfl

/-- What is cut is put together again to the whole text. -/
theorem append_of_splitAtByte? {s front rest : List Char} {n : Nat}
    (h : splitAtByte? s n = some (front, rest)) : front ++ rest = s := by
  fun_induction splitAtByte? s n generalizing front with
  | case1 s => cases h; rfl
  | case2 n => cases h
  | case3 c s n hc ih =>
    obtain ⟨⟨front, rest⟩, hs, he⟩ := Option.map_eq_some_iff.1 h
    cases he
    rw [List.cons_append, ih hs]
  | case4 c s n hc => cases h

end Admission.Text
