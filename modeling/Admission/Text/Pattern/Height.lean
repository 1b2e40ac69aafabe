/-!
# How deeply a pattern is nested

Only so much of a pattern is kept while it is read: the heights of its parts. A single character
has height zero; a repetition, a group and a class are one higher than what they hold. Parts that
stand side by side, in a sequence, in a choice or in a class, make a level of their own, unless
there is only one of them.
-/

set_option autoImplicit false

namespace Admission.Text.Pattern

/-- The height of parts that stand side by side. -/
def heightOf : List Nat → Nat
  | [] => 0
  | [height] => height
  | heights => heights.foldl max 0 + 1

/-- The greatest height that a pattern may have. -/
def maxHeight : Nat := 250

theorem heightOf_nil : heightOf [] = 0 := rfl

theorem heightOf_singleton (height : Nat) : heightOf [height] = height := rfl

theorem heightOf_cons_cons (a b : Nat) (heights : List Nat) :
    heightOf (a :: b :: heights) = (a :: b :: heights).foldl max 0 + 1 := rfl

end Admission.Text.Pattern
