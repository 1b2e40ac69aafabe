import Admission.Text.Hexadecimal

/-!
# Reading JSON texts

What is wrong with a JSON text is one of three things: it ends too early, it breaks the rules of
JSON, or it is good JSON for a value of another kind than the one asked for. The first fault met
from left to right is the one that counts.

This file reads what stands between quotation marks. A character outside the basic plane may be
written as two `\u` escapes, a leading and a trailing surrogate; a surrogate without its partner
breaks the rules, except in a text that is skipped.
-/

set_option autoImplicit false

namespace Admission.Json

/-- What is wrong with a JSON text. -/
inductive Fault where
  /-- The text breaks the rules of JSON. -/
  | malformed
  /-- The value is not of the kind asked for. -/
  | mismatched
  /-- The text ends too early. -/
  | truncated
deriving DecidableEq, Repr

/-- A value read from the beginning of a text, and the rest. -/
abbrev Parsed (α : Type) := Except Fault (α × List Char)

/-! ## Blanks, words -/

/-- The blanks that may stand between the parts of a JSON text. -/
def isBlank (c : Char) : Bool := c = ' ' || c = '\n' || c = '\t' || c = '\r'

/-- A text without the blanks at its beginning. -/
def skipBlank (s : List Char) : List Char := s.dropWhile isBlank

/-- Expects the given characters. -/
def expectWord : List Char → List Char → Except Fault (List Char)
  | [], rest => .ok rest
  | _ :: _, [] => .error .truncated
  | c :: word, d :: rest => if c = d then expectWord word rest else .error .malformed

/-! ## Escapes -/

/-- The fault of a `\u` that fewer than four characters follow. It ends too early if fewer than
four bytes follow. -/
def shortEscape (rest : List Char) : Fault :=
  if (String.ofList rest).utf8ByteSize < 4 then .truncated else .malformed

def isLeading (n : Nat) : Bool := 0xD800 ≤ n && n ≤ 0xDBFF
def isTrailing (n : Nat) : Bool := 0xDC00 ≤ n && n ≤ 0xDFFF

/-- The character of a leading and a trailing surrogate. -/
def joinSurrogates (leading trailing : Nat) : Char :=
  Char.ofNat (0x10000 + (leading - 0xD800) * 0x400 + (trailing - 0xDC00))

/-- The character that a backslash and one more character stand for. -/
def shortEscape? (c : Char) : Option Char :=
  if c = '"' || c = '\\' || c = '/' then some c
  else if c = 'b' then some '\x08'
  else if c = 'f' then some '\x0c'
  else if c = 'n' then some '\n'
  else if c = 'r' then some '\r'
  else if c = 't' then some '\t'
  else none

/-- Is the character forbidden inside a text unless it is escaped? -/
def isControl (c : Char) : Bool := c.toNat < 0x20

/-! ## Texts -/

/-- Puts a character in front of a text that was read. -/
def consChar (c : Char) : Parsed (List Char) → Parsed (List Char)
  | .ok (s, rest) => .ok (c :: s, rest)
  | .error f => .error f

/-- The fault of what follows a leading surrogate, if it is not a `\u` with four digits. -/
def afterLeading : List Char → Fault
  | [] => .truncated
  | '\\' :: [] => .truncated
  | '\\' :: 'u' :: rest => shortEscape rest
  | _ => .malformed

/-- Reads a text from behind its opening quotation mark to behind the closing one. -/
def readText : List Char → Parsed (List Char)
  | [] => .error .truncated
  | '"' :: rest => .ok ([], rest)
  | '\\' :: 'u' :: a :: b :: c :: d :: rest =>
    match Text.readHex? [a, b, c, d] with
    | none => .error .malformed
    | some n =>
      if isTrailing n then .error .malformed
      else if isLeading n then
        match rest with
        | '\\' :: 'u' :: e :: f :: g :: h :: rest =>
          match Text.readHex? [e, f, g, h] with
          | none => .error .malformed
          | some m =>
            if isTrailing m then consChar (joinSurrogates n m) (readText rest)
            else .error .malformed
        | rest => .error (afterLeading rest)
      else consChar (Char.ofNat n) (readText rest)
  | '\\' :: 'u' :: rest => .error (shortEscape rest)
  | '\\' :: c :: rest =>
    match shortEscape? c with
    | some d => consChar d (readText rest)
    | none => .error .malformed
  | '\\' :: [] => .error .truncated
  | c :: rest => if isControl c then .error .malformed else consChar c (readText rest)

/-- Skips a text from behind its opening quotation mark to behind the closing one. Surrogates need
no partner here. -/
def skipText : List Char → Except Fault (List Char)
  | [] => .error .truncated
  | '"' :: rest => .ok rest
  | '\\' :: 'u' :: a :: b :: c :: d :: rest =>
    match Text.readHex? [a, b, c, d] with
    | none => .error .malformed
    | some _ => skipText rest
  | '\\' :: 'u' :: rest => .error (shortEscape rest)
  | '\\' :: c :: rest =>
    match shortEscape? c with
    | some _ => skipText rest
    | none => .error .malformed
  | '\\' :: [] => .error .truncated
  | c :: rest => if isControl c then .error .malformed else skipText rest

end Admission.Json
