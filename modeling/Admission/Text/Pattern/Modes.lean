import Admission.Text.Blank

/-!
# Modes of a pattern

Flags inside a pattern change how the rest of it is read, up to the end of the group in which they
stand. Three of them decide whether a text is a pattern at all:

- in the mode that ignores blanks, blanks and comments stand between the parts of a pattern and
  mean nothing; a comment runs from a number sign to the end of its line;
- in the mode that ignores case, a letter matches in either case;
- in the Unicode mode, which is the usual one, a pattern matches characters; without it, bytes.

No tables of characters are at hand when patterns are matched. So whatever would take one is
refused: in the Unicode mode the sets of digits, blanks and letters, and together with the mode
that ignores case every single character. Without the Unicode mode these are sets of ASCII and need
no table, but then nothing may match a part of a character (`Modes.allows`).
-/

set_option autoImplicit false

namespace Admission.Text.Pattern

/-- How a part of a pattern is read. -/
structure Modes where
  ignoresBlanks : Bool
  ignoresCase : Bool
  isUnicode : Bool
deriving DecidableEq, Repr

/-- The modes at the beginning of a pattern. -/
def Modes.usual : Modes := ⟨false, false, true⟩

/-! ## Flags -/

/-- All flags. Those that do not belong to a mode have no influence on what is a pattern. -/
def flagLetters : List Char := ['i', 'm', 's', 'U', 'u', 'R', 'x']

/-- Are these flags, each at most once, with at most one minus sign, which is not the last? -/
def areFlags (s : List Char) : Bool :=
  s.all ('-' :: flagLetters).contains && s.eraseDups.length = s.length && s.getLast? ≠ some '-'

/-- The modes after some flags. Behind a minus sign a flag ends its mode. -/
def Modes.set : Modes → Bool → List Char → Modes
  | m, _, [] => m
  | m, on, c :: s =>
    if c = '-' then m.set false s
    else if c = 'x' then Modes.set { m with ignoresBlanks := on } on s
    else if c = 'i' then Modes.set { m with ignoresCase := on } on s
    else if c = 'u' then Modes.set { m with isUnicode := on } on s
    else m.set on s

/-! ## Blanks and comments -/

/-- A text without the blanks and comments at its beginning. -/
def skipBlanks : Bool → List Char → List Char
  | _, [] => []
  | true, c :: s => skipBlanks (c ≠ '\n') s
  | false, c :: s =>
    if isBlank c then skipBlanks false s
    else if c = '#' then skipBlanks true s
    else c :: s

/-- A text without what the modes ignore at its beginning. -/
def Modes.skip (m : Modes) (s : List Char) : List Char :=
  if m.ignoresBlanks then skipBlanks false s else s

/-- The next character that counts, as it is seen from behind a dash. A number sign is passed over
there, but not the comment that it begins. -/
def Modes.peek (m : Modes) (s : List Char) : Option Char :=
  if m.ignoresBlanks then
    let seen :=
      match s.dropWhile isBlank with
      | '#' :: rest => rest.dropWhile isBlank
      | rest => rest
    if seen.isEmpty then s.head? else seen.head?
  else s.head?

/-! ## What the modes allow -/

/-- What one character of a pattern, or one escape, stands for. -/
inductive Item where
  /-- A character. `isByte` says that it was given by its code in a single byte. -/
  | literal (code : Nat) (isByte : Bool)
  /-- A set of characters that has a letter: digits, blanks, or parts of words. -/
  | set (isNegated : Bool)
  /-- The beginning or the end of a text. -/
  | place
  /-- The boundary of a word, or a place inside. -/
  | wordBoundary
deriving DecidableEq, Repr

/-- Is an item allowed outside of classes? -/
def Modes.allows (m : Modes) : Item → Bool
  | .literal code isByte => if m.isUnicode then !m.ignoresCase else !isByte || code < 0x80
  | .set isNegated => !m.isUnicode && !isNegated
  | .place => true
  | .wordBoundary => true

/-- Is an item allowed inside of classes? Places are no characters, so they are not. -/
def Modes.allowsInClass (m : Modes) : Item → Bool
  | .literal code _ => if m.isUnicode then !m.ignoresCase else code < 0x80
  | .set isNegated => !m.isUnicode && !isNegated
  | .place => false
  | .wordBoundary => false

/-- Is any character but a line break allowed? It is no byte. -/
def Modes.allowsAny (m : Modes) : Bool := m.isUnicode

/-- Is a class with a name, such as that of the ASCII letters, allowed inside of a class? -/
def Modes.allowsNamed (m : Modes) (isNegated : Bool) : Bool :=
  if m.isUnicode then !m.ignoresCase else !isNegated

/-- Is a class allowed? The bytes outside of a class of ASCII are parts of characters. -/
def Modes.allowsClass (m : Modes) (isNegated : Bool) : Bool := m.isUnicode || !isNegated

end Admission.Text.Pattern
