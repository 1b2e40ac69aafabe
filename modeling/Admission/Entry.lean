import Admission.Text.Quoted

/-!
# Entries

An entry names a resource that callers may track, a connection for instance: a protocol and two
addresses. The three texts are opaque. Two entries are the same slot when all three are equal, and
entries are ordered field by field, each field by its code points, which is also the order of
their UTF-8 bytes.
-/

set_option autoImplicit false

namespace Admission

/-- A resource that can be occupied. -/
structure Entry where
  protocol : String
  localAddr : String
  remoteAddr : String
deriving DecidableEq, Repr

namespace Entry

/-! ## Order -/

instance : Ord Entry where
  compare a b :=
    (compare a.protocol b.protocol).then
      ((compare a.localAddr b.localAddr).then (compare a.remoteAddr b.remoteAddr))

/-- The order of entries, as the lexicographic product of the orders of the fields. -/
theorem compare_eq_lex (a b : Entry) :
    compare a b = compareLex (compareOn Entry.protocol)
      (compareLex (compareOn Entry.localAddr) (compareOn Entry.remoteAddr)) a b := rfl

instance : Std.TransOrd Entry :=
  inferInstanceAs (Std.TransCmp (compareLex (compareOn Entry.protocol)
    (compareLex (compareOn Entry.localAddr) (compareOn Entry.remoteAddr))))

instance : Std.LawfulEqOrd Entry where
  compare_self := Std.ReflOrd.compare_self
  eq_of_compare := by
    intro a b h
    obtain ⟨h₁, h₂⟩ := Ordering.then_eq_eq.mp h
    obtain ⟨h₂, h₃⟩ := Ordering.then_eq_eq.mp h₂
    cases a; cases b
    cases Std.LawfulEqOrd.eq_of_compare h₁
    cases Std.LawfulEqOrd.eq_of_compare h₂
    cases Std.LawfulEqOrd.eq_of_compare h₃
    rfl

/-! ## Text -/

/-- An entry as logs and messages name it. -/
def text (e : Entry) : String := e.protocol ++ " " ++ e.localAddr ++ "->" ++ e.remoteAddr

/-- An entry with every field quoted. -/
def debug (e : Entry) : String :=
  "Entry \x7b protocol: " ++ Text.quote e.protocol ++ ", local_addr: " ++ Text.quote e.localAddr ++
    ", remote_addr: " ++ Text.quote e.remoteAddr ++ " \x7d"

/-- Entries in ascending order, each once. -/
def sorted (entries : List Entry) : List Entry :=
  (entries.mergeSort fun a b => (compare a b).isLE).eraseReps

end Entry

end Admission
