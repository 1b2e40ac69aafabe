import Admission.Text.Unshown

/-!
# Quoted text

Strings that come from outside are shown between quotation marks, so that a reader sees where each
begins and ends, and so that nothing inside one can pass for the text around it. A quotation mark
and a backslash inside are preceded by a backslash; the common control characters have short
forms; every other character that is not shown as it is becomes `\u`, an opening brace, its code
point in hexadecimal, and a closing brace.
-/

set_option autoImplicit false

namespace Admission.Text

/-- A code point in lower-case hexadecimal, between braces. -/
def codePointEscape (c : Char) : List Char :=
  '\\' :: 'u' :: '{' :: (Nat.toDigits 16 c.toNat ++ ['}'])

/-- One character as it stands inside quotation marks. -/
def quoteChar (c : Char) : List Char :=
  if c = '"' then ['\\', '"']
  else if c = '\\' then ['\\', '\\']
  else if c = '\n' then ['\\', 'n']
  else if c = '\r' then ['\\', 'r']
  else if c = '\t' then ['\\', 't']
  else if c = '\x00' then ['\\', '0']
  else if isShown c then [c]
  else codePointEscape c

/-- The text between the quotation marks. -/
def quoteBody (s : List Char) : List Char := s.flatMap quoteChar

/-- A text between quotation marks, on one line. -/
def quote (s : String) : String :=
  String.ofList ('"' :: (quoteBody s.toList ++ ['"']))

theorem quoteBody_nil : quoteBody [] = [] := rfl

theorem quoteBody_cons (c : Char) (s : List Char) :
    quoteBody (c :: s) = quoteChar c ++ quoteBody s := rfl

end Admission.Text
