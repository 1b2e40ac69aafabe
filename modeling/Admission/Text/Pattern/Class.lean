import Admission.Text.Pattern.Escape
import Admission.Text.Pattern.Height

/-!
# Classes of characters

A class stands between brackets and lists characters, ranges of them, and classes again. Two of
its parts can be joined by an operator, which is written as a double sign: what both have in common
(`&&`), what only the first has (`--`), and what only one of the two has (`~~`). A caret at the
beginning means all characters that are not in the class.
-/

set_option autoImplicit false

namespace Admission.Text.Pattern

/-! ## Parts of a class -/

/-- Reads one item of a class. -/
def readItem? (m : Modes) : List Char → Option (Item × List Char)
  | [] => none
  | '\\' :: rest => readEscape? m rest
  | c :: rest => some (.literal c.toNat false, rest)

/-- Reads the end of a range whose first character is `first`. The ends are in order. -/
def readRangeEnd? (m : Modes) (first : Item) (s : List Char) : Option (List Char) :=
  match first, readItem? m s with
  | .literal a isByte, some (.literal b isByte', rest) =>
    if a ≤ b && m.allowsInClass (.literal a isByte) && m.allowsInClass (.literal b isByte') then
      some rest
    else none
  | _, _ => none

/-- Reads an item of a class, or a range. A dash in front of the closing bracket, or of another
dash, makes no range. -/
def readRange? (m : Modes) (s : List Char) : Option (List Char) :=
  match readItem? m s with
  | none => none
  | some (item, rest) =>
    let alone (rest : List Char) : Option (List Char) :=
      if m.allowsInClass item then some rest else none
    match m.skip rest with
    | '-' :: behind =>
      if m.peek behind = some ']' || m.peek behind = some '-' then alone ('-' :: behind)
      else readRangeEnd? m item (m.skip behind)
    | rest => alone rest

/-- The classes that have a name. -/
def classNames : List String :=
  ["alnum", "alpha", "ascii", "blank", "cntrl", "digit", "graph", "lower", "print", "punct",
    "space", "upper", "word", "xdigit"]

/-- A text without a caret at its beginning: was there one? -/
def takeCaret : List Char → Bool × List Char
  | '^' :: rest => (true, rest)
  | s => (false, s)

/-- Reads a class with a name from behind its opening bracket: is it negated? -/
def readNamedClass? : List Char → Option (Bool × List Char)
  | ':' :: s =>
    let (isNegated, s) := takeCaret s
    match s.dropWhile (· ≠ ':') with
    | ':' :: ']' :: rest =>
      if classNames.contains (String.ofList (s.takeWhile (· ≠ ':'))) then some (isNegated, rest)
      else none
    | _ => none
  | _ => none

/-! ## Brackets -/

/-- A bracket that is open. -/
structure OpenClass where
  /-- The heights of the parts behind the last operator. -/
  parts : List Nat
  /-- The height of all that stands in front of it. -/
  operand : Option Nat
deriving DecidableEq, Repr

namespace OpenClass

/-- A class with one more part. -/
def add (c : OpenClass) (height : Nat) : OpenClass := { c with parts := height :: c.parts }

/-- The height of what stands in a class. -/
def height (c : OpenClass) : Nat :=
  match c.operand with
  | none => heightOf c.parts
  | some operand => heightOf [operand, heightOf c.parts]

/-- A class behind an operator. -/
def operate (c : OpenClass) : OpenClass := ⟨[], some c.height⟩

end OpenClass

/-- The dashes at the beginning of a class, which stand for themselves. -/
def takeDashes (m : Modes) : Nat → List Char → List Nat × List Char
  | 0, s => ([], s)
  | fuel + 1, s =>
    match s with
    | '-' :: rest =>
      let (dashes, rest) := takeDashes m fuel (m.skip rest)
      (0 :: dashes, rest)
    | s => ([], s)

/-- Reads the beginning of a class from behind its bracket. If a closing bracket is the first thing
in a class, it stands for itself. -/
def openClass? (m : Modes) (s : List Char) : Option (OpenClass × List Char) :=
  let (isNegated, s) := takeCaret (m.skip s)
  let s := if isNegated then m.skip s else s
  let (parts, s) :=
    match s with
    | ']' :: rest => ([0], m.skip rest)
    | s => takeDashes m s.length s
  if m.allowsClass isNegated && (parts.isEmpty || m.allowsInClass (.literal 0x2D false)) then
    some (⟨parts, none⟩, s)
  else none

/-- The text behind an operator, if one stands there. -/
def operator? : List Char → Option (List Char)
  | '&' :: '&' :: rest => some rest
  | '-' :: '-' :: rest => some rest
  | '~' :: '~' :: rest => some rest
  | _ => none

/-- Reads the rest of a class, and of the classes around it, in at most `fuel` steps. The answer is
the height of the outermost one. -/
def readClass? (m : Modes) :
    Nat → OpenClass → List OpenClass → List Char → Option (Nat × List Char)
  | 0, _, _, _ => none
  | fuel + 1, c, outer, s =>
    match m.skip s with
    | [] => none
    | '[' :: rest =>
      match readNamedClass? rest with
      | some (isNegated, rest) =>
        if m.allowsNamed isNegated then readClass? m fuel (c.add 0) outer rest else none
      | none =>
        match openClass? m rest with
        | some (inner, rest) => readClass? m fuel inner (c :: outer) rest
        | none => none
    | ']' :: rest =>
      match outer with
      | [] => some (c.height + 1, rest)
      | parent :: outer => readClass? m fuel (parent.add (c.height + 1)) outer rest
    | s =>
      match operator? s with
      | some rest => readClass? m fuel c.operate outer rest
      | none =>
        match readRange? m s with
        | some rest => readClass? m fuel (c.add 0) outer rest
        | none => none

end Admission.Text.Pattern
