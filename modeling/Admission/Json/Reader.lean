import Admission.Json.Number

/-!
# Reading JSON values of a known kind

A reader knows which kind of value it wants. If another kind of value stands there, a scalar is
still read to its end, so that a fault inside it comes first; of a list or an object only the
bracket is seen.

Fields that nobody asked for are skipped with `skipValue`. It keeps the brackets that are open on
a stack, and each of its rounds reads at least one character.
-/

set_option autoImplicit false

namespace Admission.Json

/-! ## Scalars -/

/-- A fault inside a value that is not wanted, and otherwise the fault of not being wanted. -/
def faultOr {α : Type} : Except Fault α → Fault
  | .ok _ => .mismatched
  | .error f => f

/-- The fault of a value of another kind than the one wanted. -/
def wrongKind : List Char → Fault
  | [] => .truncated
  | 'n' :: rest => faultOr (expectWord ['u', 'l', 'l'] rest)
  | 't' :: rest => faultOr (expectWord ['r', 'u', 'e'] rest)
  | 'f' :: rest => faultOr (expectWord ['a', 'l', 's', 'e'] rest)
  | '-' :: rest => faultOr (readNumber true rest)
  | '"' :: rest => faultOr (readText rest)
  | '[' :: _ => .mismatched
  | '{' :: _ => .mismatched
  | c :: rest => if c.isDigit then faultOr (readNumber false (c :: rest)) else .malformed

/-- Reads a text. -/
def readString (s : List Char) : Parsed (List Char) :=
  match skipBlank s with
  | '"' :: rest => readText rest
  | s => .error (wrongKind s)

/-- Reads a number. -/
def readAnyNumber (s : List Char) : Parsed Number :=
  match skipBlank s with
  | '-' :: rest => readNumber true rest
  | c :: rest => if c.isDigit then readNumber false (c :: rest) else .error (wrongKind (c :: rest))
  | [] => .error .truncated

/-- Reads an integer between two bounds, the upper one excluded. -/
def readInt (least bound : Int) (s : List Char) : Parsed Int :=
  match readAnyNumber s with
  | .error f => .error f
  | .ok (.natural n, rest) =>
    if least ≤ n ∧ (n : Int) < bound then .ok (n, rest) else .error .mismatched
  | .ok (.negative n, rest) =>
    if least ≤ -(n : Int) ∧ -(n : Int) < bound then .ok (-(n : Int), rest) else .error .mismatched
  | .ok (.fraction, _) => .error .mismatched

/-- Reads null. -/
def readNull (s : List Char) : Except Fault (List Char) :=
  match skipBlank s with
  | 'n' :: rest => expectWord ['u', 'l', 'l'] rest
  | s => .error (wrongKind s)

/-! ## Punctuation -/

/-- Expects the colon after the name of a field. -/
def expectColon (s : List Char) : Except Fault (List Char) :=
  match skipBlank s with
  | ':' :: rest => .ok rest
  | [] => .error .truncated
  | _ => .error .malformed

/-- Expects the end of the whole text. -/
def expectEnd {α : Type} : Parsed α → Except Fault α
  | .error f => .error f
  | .ok (a, rest) => if (skipBlank rest).isEmpty then .ok a else .error .malformed

/-! ## Skipping values -/

/-- A bracket that is open. -/
inductive Bracket where
  | list
  | object
deriving DecidableEq, Repr

/-- Skips the name of a field and its colon. -/
def skipName (s : List Char) : Except Fault (List Char) :=
  match skipBlank s with
  | '"' :: rest =>
    match skipText rest with
    | .ok rest => expectColon rest
    | .error f => .error f
  | [] => .error .truncated
  | _ => .error .malformed

/-- After a value: closes the brackets that end here. `none` says that the outermost value is
complete; otherwise another value follows inside the brackets that are still open. -/
def closeBrackets : List Bracket → List Char → Except Fault (Option (List Bracket) × List Char)
  | [], s => .ok (none, s)
  | bracket :: outer, s =>
    match skipBlank s, bracket with
    | ',' :: rest, .list => .ok (some (bracket :: outer), rest)
    | ',' :: rest, .object =>
      match skipName rest with
      | .ok rest => .ok (some (bracket :: outer), rest)
      | .error f => .error f
    | ']' :: rest, .list => closeBrackets outer rest
    | '}' :: rest, .object => closeBrackets outer rest
    | [], _ => .error .truncated
    | _, _ => .error .malformed

/-- Skips a scalar; opening brackets are none. -/
def skipScalar : List Char → Except Fault (List Char)
  | [] => .error .truncated
  | 'n' :: rest => expectWord ['u', 'l', 'l'] rest
  | 't' :: rest => expectWord ['r', 'u', 'e'] rest
  | 'f' :: rest => expectWord ['a', 'l', 's', 'e'] rest
  | '-' :: rest => skipNumber rest
  | '"' :: rest => skipText rest
  | c :: rest => if c.isDigit then skipNumber (c :: rest) else .error .malformed

/-- Behind an opening bracket: either it is closed at once, or its first value follows. -/
def openBracket (bracket : Bracket) (outer : List Bracket) (s : List Char) :
    Except Fault (Option (List Bracket) × List Char) :=
  match skipBlank s, bracket with
  | [], _ => .error .truncated
  | ']' :: rest, .list => closeBrackets outer rest
  | '}' :: rest, .object => closeBrackets outer rest
  | s, .list => .ok (some (bracket :: outer), s)
  | s, .object =>
    match skipName s with
    | .ok rest => .ok (some (bracket :: outer), rest)
    | .error f => .error f

/-- Begins a value inside open brackets: a scalar is skipped whole, a bracket is opened. -/
def skipBeginning (outer : List Bracket) (s : List Char) :
    Except Fault (Option (List Bracket) × List Char) :=
  match skipBlank s with
  | '[' :: rest => openBracket .list outer rest
  | '{' :: rest => openBracket .object outer rest
  | s =>
    match skipScalar s with
    | .ok rest => closeBrackets outer rest
    | .error f => .error f

/-- Skips values until all brackets are closed, in at most `fuel` rounds. -/
def skipRounds : Nat → List Bracket → List Char → Except Fault (List Char)
  | 0, _, _ => .error .truncated
  | fuel + 1, outer, s =>
    match skipBeginning outer s with
    | .error f => .error f
    | .ok (none, rest) => .ok rest
    | .ok (some brackets, rest) => skipRounds fuel brackets rest

/-- Skips one value. -/
def skipValue (s : List Char) : Except Fault (List Char) := skipRounds (s.length + 1) [] s

end Admission.Json
