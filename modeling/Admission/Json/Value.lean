/-!
# JSON values and their written form

The values that this library writes: null, integers, texts, lists and objects whose fields keep
the order in which they were put. There are two written forms of the same value, a compact one on
a single line and a tall one with two spaces for each level; an empty list or object takes a pair
of brackets in both.

A text is written with a backslash before quotation marks and backslashes, with the short forms of
the five control characters that have one, and with `\u00` and two hexadecimal digits for the
other characters below U+0020. Everything else stands for itself.
-/

set_option autoImplicit false

namespace Admission.Json

/-- A value to be written. -/
inductive Value where
  | null
  | bool (b : Bool)
  | num (n : Int)
  | str (s : String)
  | arr (items : List Value)
  | obj (fields : List (String × Value))

/-! ## Texts and numbers -/

/-- A hexadecimal digit in lower case. -/
def hexDigit (n : Nat) : Char := if n < 10 then Char.ofNat (48 + n) else Char.ofNat (87 + n)

/-- One character as it stands inside a written text. -/
def escapeChar (c : Char) : List Char :=
  if c = '"' then ['\\', '"']
  else if c = '\\' then ['\\', '\\']
  else if c = '\x08' then ['\\', 'b']
  else if c = '\x0c' then ['\\', 'f']
  else if c = '\n' then ['\\', 'n']
  else if c = '\r' then ['\\', 'r']
  else if c = '\t' then ['\\', 't']
  else if c.toNat < 0x20 then
    ['\\', 'u', '0', '0', hexDigit (c.toNat / 16), hexDigit (c.toNat % 16)]
  else [c]

/-- A text between quotation marks. -/
def writeText (s : List Char) : List Char := '"' :: (s.flatMap escapeChar ++ ['"'])

/-- A number in decimal digits. -/
def writeInt (n : Int) : List Char :=
  if n < 0 then '-' :: Nat.toDigits 10 n.natAbs else Nat.toDigits 10 n.natAbs

/-! ## The compact form -/

mutual

/-- A value on one line, without blanks. -/
def Value.write : Value → List Char
  | .null => ['n', 'u', 'l', 'l']
  | .bool true => ['t', 'r', 'u', 'e']
  | .bool false => ['f', 'a', 'l', 's', 'e']
  | .num n => writeInt n
  | .str s => writeText s.toList
  | .arr items => '[' :: (writeItems items ++ [']'])
  | .obj fields => '{' :: (writeFields fields ++ ['}'])

/-- Items with commas between them. -/
def writeItems : List Value → List Char
  | [] => []
  | v :: rest => v.write ++ writeMoreItems rest

/-- Items that follow another one. -/
def writeMoreItems : List Value → List Char
  | [] => []
  | v :: rest => ',' :: (v.write ++ writeMoreItems rest)

/-- Fields with commas between them. -/
def writeFields : List (String × Value) → List Char
  | [] => []
  | (name, v) :: rest => writeText name.toList ++ ':' :: (v.write ++ writeMoreFields rest)

/-- Fields that follow another one. -/
def writeMoreFields : List (String × Value) → List Char
  | [] => []
  | (name, v) :: rest => ',' :: (writeText name.toList ++ ':' :: (v.write ++ writeMoreFields rest))

end

/-- A value as one line of text. -/
def Value.compact (v : Value) : String := String.ofList v.write

/-! ## The tall form -/

/-- The beginning of a line at a depth. -/
def newLine (depth : Nat) : List Char := '\n' :: List.replicate (2 * depth) ' '

mutual

/-- A value spread over lines; `depth` is the level of the line on which it begins. -/
def Value.writeTall (depth : Nat) : Value → List Char
  | .null => ['n', 'u', 'l', 'l']
  | .bool true => ['t', 'r', 'u', 'e']
  | .bool false => ['f', 'a', 'l', 's', 'e']
  | .num n => writeInt n
  | .str s => writeText s.toList
  | .arr [] => ['[', ']']
  | .arr items => '[' :: (writeTallItems (depth + 1) items ++ newLine depth ++ [']'])
  | .obj [] => ['{', '}']
  | .obj fields => '{' :: (writeTallFields (depth + 1) fields ++ newLine depth ++ ['}'])

/-- Items, each on a line of its own. -/
def writeTallItems (depth : Nat) : List Value → List Char
  | [] => []
  | [v] => newLine depth ++ v.writeTall depth
  | v :: rest => newLine depth ++ v.writeTall depth ++ ',' :: writeTallItems depth rest

/-- Fields, each on a line of its own. -/
def writeTallFields (depth : Nat) : List (String × Value) → List Char
  | [] => []
  | [(name, v)] =>
    newLine depth ++ writeText name.toList ++ ':' :: ' ' :: v.writeTall depth
  | (name, v) :: rest =>
    newLine depth ++ writeText name.toList ++ ':' :: ' ' :: (v.writeTall depth ++
      ',' :: writeTallFields depth rest)

end

/-- A value as text over several lines. -/
def Value.tall (v : Value) : String := String.ofList (v.writeTall 0)

end Admission.Json
