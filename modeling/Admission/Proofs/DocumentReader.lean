import Admission.Json.Reader
import Admission.Json.Value

/-!
# A reader for whole documents

What the library reads itself is of a kind that it knows beforehand. What it writes others read, and
to say that they can takes a reader that knows nothing beforehand. This one reads any value, nested
as deep as it may be, and leaves it to others to look for what they want in it. Numbers are whole,
as many digits as they have; a number with a fraction or an exponent is a value of another kind.
-/

set_option autoImplicit false

namespace Admission.Json

/-- Changes the value that was read. -/
def changeValue {α β : Type} (f : α → β) : Parsed α → Parsed β
  | .ok (a, rest) => .ok (f a, rest)
  | .error fault => .error fault

/-! ## Scalars -/

/-- Does a number go on behind its whole part? -/
def isFractional : List Char → Bool
  | c :: _ => c = '.' || c = 'e' || c = 'E'
  | [] => false

/-- Reads the digits of a whole number. A zero in front may not be followed by another digit. -/
def readDigits (s : List Char) : Parsed Nat :=
  let rest := s.dropWhile Char.isDigit
  match s.takeWhile Char.isDigit with
  | [] => .error (missingDigit rest)
  | c :: more =>
    if c = '0' && !more.isEmpty then .error .malformed
    else if isFractional rest then .error .mismatched
    else .ok (Decimal.valueOf (c :: more), rest)

/-- Reads a whole number with its sign. -/
def readWhole : List Char → Parsed Int
  | '-' :: rest => changeValue (fun n : Nat => -(n : Int)) (readDigits rest)
  | s => changeValue (fun n : Nat => (n : Int)) (readDigits s)

/-- Reads a word that stands for a value. -/
def readWord (word : List Char) (v : Value) (s : List Char) : Parsed Value :=
  match expectWord word s with
  | .ok rest => .ok (v, rest)
  | .error fault => .error fault

/-- Reads a value that has no parts. -/
def readScalar : List Char → Parsed Value
  | [] => .error .truncated
  | '"' :: rest => changeValue (fun t => .str (String.ofList t)) (readText rest)
  | 'n' :: rest => readWord ['u', 'l', 'l'] .null rest
  | 't' :: rest => readWord ['r', 'u', 'e'] (.bool true) rest
  | 'f' :: rest => readWord ['a', 'l', 's', 'e'] (.bool false) rest
  | s => changeValue .num (readWhole s)

/-- Reads the name of a field and the colon behind it. -/
def readName (s : List Char) : Parsed String :=
  match readString s with
  | .error fault => .error fault
  | .ok (name, rest) =>
    match expectColon rest with
    | .error fault => .error fault
    | .ok rest => .ok (String.ofList name, rest)

/-! ## Values with parts -/

mutual

/-- Reads a value. Each level of nesting takes from `fuel`, and so does each part of a list. -/
def readValue : Nat → List Char → Parsed Value
  | 0, _ => .error .truncated
  | fuel + 1, s =>
    match skipBlank s with
    | '[' :: rest =>
      match skipBlank rest with
      | ']' :: rest => .ok (.arr [], rest)
      | rest => changeValue .arr (readItems fuel rest)
    | '{' :: rest =>
      match skipBlank rest with
      | '}' :: rest => .ok (.obj [], rest)
      | rest => changeValue .obj (readFields fuel rest)
    | s => readScalar s

/-- Reads the items of a list, at least one, and the bracket behind them. -/
def readItems : Nat → List Char → Parsed (List Value)
  | 0, _ => .error .truncated
  | fuel + 1, s =>
    match readValue fuel s with
    | .error fault => .error fault
    | .ok (v, rest) =>
      match skipBlank rest with
      | ',' :: rest => changeValue (v :: ·) (readItems fuel rest)
      | ']' :: rest => .ok ([v], rest)
      | [] => .error .truncated
      | _ => .error .malformed

/-- Reads the fields of an object, at least one, and the bracket behind them. -/
def readFields : Nat → List Char → Parsed (List (String × Value))
  | 0, _ => .error .truncated
  | fuel + 1, s =>
    match readName s with
    | .error fault => .error fault
    | .ok (name, rest) =>
      match readValue fuel rest with
      | .error fault => .error fault
      | .ok (v, rest) =>
        match skipBlank rest with
        | ',' :: rest => changeValue ((name, v) :: ·) (readFields fuel rest)
        | '}' :: rest => .ok ([(name, v)], rest)
        | [] => .error .truncated
        | _ => .error .malformed

end

/-- The value that a whole text denotes. -/
def Value.ofText (s : String) : Except Fault Value := expectEnd (readValue (s.length + 1) s.toList)

/-! ## Looking into values -/

namespace Value

/-- The field of an object with a given name. -/
def field? (name : String) : Value → Option Value
  | obj fields => fields.lookup name
  | _ => none

def items? : Value → Option (List Value)
  | arr items => some items
  | _ => none

def text? : Value → Option String
  | str s => some s
  | _ => none

/-- The number of a value, if it is not negative. -/
def natural? : Value → Option Nat
  | num n => if 0 ≤ n then some n.toNat else none
  | _ => none

end Value

end Admission.Json
