import Admission.Text.Hexadecimal
import Admission.Text.Pattern.Modes

/-!
# Escapes in patterns

A backslash gives some letters a meaning, and takes it from every other character of ASCII. A code
point can be given by two, four or eight hexadecimal digits, between which the mode that ignores
blanks has its way.
-/

set_option autoImplicit false

namespace Admission.Text.Pattern

/-- Reads `count` characters, each together with what is ignored in front of the next. -/
def takeSpaced (m : Modes) : Nat → List Char → Option (List Char × List Char)
  | 0, s => some ([], s)
  | _ + 1, [] => none
  | count + 1, c :: s =>
    (takeSpaced m count (m.skip s)).map fun (taken, rest) => (c :: taken, rest)

/-- Reads a code point of `count` hexadecimal digits. -/
def readCode? (m : Modes) (count : Nat) (s : List Char) : Option (Item × List Char) :=
  match takeSpaced m count (m.skip s) with
  | none => none
  | some (digits, rest) =>
    match readHex? digits with
    | none => none
    | some code => if code.isValidChar then some (.literal code (count = 2), rest) else none

/-- Reads an escape from behind its backslash. There are no sets named by a property of their
characters, and no references to what a group matched. -/
def readEscape? (m : Modes) : List Char → Option (Item × List Char)
  | [] => none
  | c :: rest =>
    match c with
    | 'x' => readCode? m 2 rest
    | 'u' => readCode? m 4 rest
    | 'U' => readCode? m 8 rest
    | 'a' => some (.literal 7 false, rest)
    | 't' => some (.literal 9 false, rest)
    | 'n' => some (.literal 10 false, rest)
    | 'v' => some (.literal 11 false, rest)
    | 'f' => some (.literal 12 false, rest)
    | 'r' => some (.literal 13 false, rest)
    | 'A' => some (.place, rest)
    | 'z' => some (.place, rest)
    | _ =>
      if ['d', 's', 'w'].contains c then some (.set false, rest)
      else if ['D', 'S', 'W'].contains c then some (.set true, rest)
      else if ['b', 'B', '<', '>'].contains c then some (.wordBoundary, rest)
      else if 0x80 ≤ c.toNat || c.isAlphanum then none
      else some (.literal c.toNat false, rest)

end Admission.Text.Pattern
