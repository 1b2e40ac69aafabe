/-!
# The width of a text on a terminal

A terminal draws a character in one cell, in two (East Asian wide and fullwidth characters, most
emoji), or in none (the vowel and trailing parts of a Hangul syllable, and signs that lean on the
letter behind them). A few characters are drawn together with the one behind them: an emoji
disappears in the skin tone that colours it, a lam joins an alef, the first of a pair of Lisu
tones joins the second, and the parts of a Kirat Rai vowel make one sign. So a width is a property
of the whole text. It is measured from the end, since what joins is known by what follows it.

Spaces never join and never are joined, so padding by `k` spaces adds exactly `k` cells
(`displayWidth_append_spaces`), which is what a table needs to line its columns up.
-/

set_option autoImplicit false

namespace Admission.Text

/-- Code points that take two cells. -/
def wideRanges : List (Nat × Nat) := [
  (0x1100, 0x115F), (0x231A, 0x231B), (0x2329, 0x232A), (0x23E9, 0x23EC), (0x23F0, 0x23F0),
  (0x23F3, 0x23F3), (0x25FD, 0x25FE), (0x2614, 0x2615), (0x2630, 0x2637), (0x2648, 0x2653),
  (0x267F, 0x267F), (0x268A, 0x268F), (0x2693, 0x2693), (0x26A1, 0x26A1), (0x26AA, 0x26AB),
  (0x26BD, 0x26BE), (0x26C4, 0x26C5), (0x26CE, 0x26CE), (0x26D4, 0x26D4), (0x26EA, 0x26EA),
  (0x26F2, 0x26F3), (0x26F5, 0x26F5), (0x26FA, 0x26FA), (0x26FD, 0x26FD), (0x2705, 0x2705),
  (0x270A, 0x270B), (0x2728, 0x2728), (0x274C, 0x274C), (0x274E, 0x274E), (0x2753, 0x2755),
  (0x2757, 0x2757), (0x2795, 0x2797), (0x27B0, 0x27B0), (0x27BF, 0x27BF), (0x2B1B, 0x2B1C),
  (0x2B50, 0x2B50), (0x2B55, 0x2B55), (0x2E80, 0x2E99), (0x2E9B, 0x2EF3), (0x2F00, 0x2FD5),
  (0x2FF0, 0x3029), (0x3030, 0x303E), (0x3041, 0x3096), (0x309B, 0x30FF), (0x3105, 0x312F),
  (0x3131, 0x3163), (0x3165, 0x318E), (0x3190, 0x31E5), (0x31EF, 0x321E), (0x3220, 0x3247),
  (0x3250, 0xA48C), (0xA490, 0xA4C6), (0xA960, 0xA97C), (0xAC00, 0xD7A3), (0xF900, 0xFAFF),
  (0xFE10, 0xFE19), (0xFE30, 0xFE52), (0xFE54, 0xFE66), (0xFE68, 0xFE6B), (0xFF01, 0xFF60),
  (0xFFE0, 0xFFE6), (0x16FE0, 0x16FE3), (0x16FF2, 0x16FF6), (0x17000, 0x18CD5), (0x18CFF, 0x18D1E),
  (0x18D80, 0x18DF2), (0x1AFF0, 0x1AFF3), (0x1AFF5, 0x1AFFB), (0x1AFFD, 0x1AFFE),
  (0x1B000, 0x1B122), (0x1B132, 0x1B132), (0x1B150, 0x1B152), (0x1B155, 0x1B155),
  (0x1B164, 0x1B167), (0x1B170, 0x1B2FB), (0x1D300, 0x1D356), (0x1D360, 0x1D376),
  (0x1F004, 0x1F004), (0x1F0CF, 0x1F0CF), (0x1F18E, 0x1F18E), (0x1F191, 0x1F19A),
  (0x1F200, 0x1F202), (0x1F210, 0x1F23B), (0x1F240, 0x1F248), (0x1F250, 0x1F251),
  (0x1F260, 0x1F265), (0x1F300, 0x1F320), (0x1F32D, 0x1F335), (0x1F337, 0x1F37C),
  (0x1F37E, 0x1F393), (0x1F3A0, 0x1F3CA), (0x1F3CF, 0x1F3D3), (0x1F3E0, 0x1F3F0),
  (0x1F3F4, 0x1F3F4), (0x1F3F8, 0x1F43E), (0x1F440, 0x1F440), (0x1F442, 0x1F4FC),
  (0x1F4FF, 0x1F53D), (0x1F54B, 0x1F54E), (0x1F550, 0x1F567), (0x1F57A, 0x1F57A),
  (0x1F595, 0x1F596), (0x1F5A4, 0x1F5A4), (0x1F5FB, 0x1F64F), (0x1F680, 0x1F6C5),
  (0x1F6CC, 0x1F6CC), (0x1F6D0, 0x1F6D2), (0x1F6D5, 0x1F6D8), (0x1F6DC, 0x1F6DF),
  (0x1F6EB, 0x1F6EC), (0x1F6F4, 0x1F6FC), (0x1F7E0, 0x1F7EB), (0x1F7F0, 0x1F7F0),
  (0x1F90C, 0x1F93A), (0x1F93C, 0x1F945), (0x1F947, 0x1F9FF), (0x1FA70, 0x1FA7C),
  (0x1FA80, 0x1FA8A), (0x1FA8E, 0x1FAC6), (0x1FAC8, 0x1FAC8), (0x1FACD, 0x1FADC),
  (0x1FADF, 0x1FAEA), (0x1FAEF, 0x1FAF8), (0x20000, 0x2FFFD), (0x30000, 0x3FFFD)]

/-- Code points that take no cell although they are shown. -/
def zeroWidthRanges : List (Nat × Nat) := [
  (0x0D4E, 0x0D4E), (0x1161, 0x11FF), (0xA8FA, 0xA8FA), (0xD7B0, 0xD7C6), (0xD7CB, 0xD7FB),
  (0x111C2, 0x111C3), (0x113D1, 0x113D1), (0x1193F, 0x1193F), (0x11941, 0x11941),
  (0x11A84, 0x11A89), (0x11D46, 0x11D46), (0x11F02, 0x11F02)]

/-- Emoji that a following skin tone colours. -/
def skinToneBases : List (Nat × Nat) := [
  (0x261D, 0x261D), (0x26F9, 0x26F9), (0x270A, 0x270D), (0x1F385, 0x1F385), (0x1F3C2, 0x1F3C4),
  (0x1F3C7, 0x1F3C7), (0x1F3CA, 0x1F3CC), (0x1F442, 0x1F443), (0x1F446, 0x1F450),
  (0x1F466, 0x1F478), (0x1F47C, 0x1F47C), (0x1F481, 0x1F483), (0x1F485, 0x1F487),
  (0x1F48F, 0x1F48F), (0x1F491, 0x1F491), (0x1F4AA, 0x1F4AA), (0x1F574, 0x1F575),
  (0x1F57A, 0x1F57A), (0x1F590, 0x1F590), (0x1F595, 0x1F596), (0x1F645, 0x1F647),
  (0x1F64B, 0x1F64F), (0x1F6A3, 0x1F6A3), (0x1F6B4, 0x1F6B6), (0x1F6C0, 0x1F6C0),
  (0x1F6CC, 0x1F6CC), (0x1F90C, 0x1F90C), (0x1F90F, 0x1F90F), (0x1F918, 0x1F91F),
  (0x1F926, 0x1F926), (0x1F930, 0x1F939), (0x1F93C, 0x1F93E), (0x1F977, 0x1F977),
  (0x1F9B5, 0x1F9B6), (0x1F9B8, 0x1F9B9), (0x1F9BB, 0x1F9BB), (0x1F9CD, 0x1F9CF),
  (0x1F9D1, 0x1F9DD), (0x1FAC3, 0x1FAC5), (0x1FAF0, 0x1FAF8)]

/-- The Arabic letters lam. -/
def lamRanges : List (Nat × Nat) := [
  (0x0644, 0x0644), (0x06B5, 0x06B8), (0x076A, 0x076A), (0x08A6, 0x08A6), (0x08C7, 0x08C7)]

/-- The Arabic letters alef. -/
def alefRanges : List (Nat × Nat) := [
  (0x0622, 0x0623), (0x0625, 0x0625), (0x0627, 0x0627), (0x0671, 0x0673), (0x0675, 0x0675),
  (0x0773, 0x0774), (0x0870, 0x0882)]

/-- Does a code point lie in one of the ranges? -/
def inRanges (ranges : List (Nat × Nat)) (n : Nat) : Bool :=
  ranges.any fun r => r.1 ≤ n && n ≤ r.2

/-! ## Joining -/

/-- What a text begins with, as far as a character in front of it can join it. -/
inductive Joint where
  /-- Nothing that joins. -/
  | plain
  | alef
  | skinTone
  /-- The second tone of a Lisu pair. -/
  | lisuTone
  /-- The Kirat Rai vowel sign e. -/
  | kiratRaiE
  /-- The Kirat Rai vowel sign ai, written as one sign or as two. -/
  | kiratRaiAi
deriving DecidableEq, Repr

/-- The joint that a character offers when nothing behind it changes it. -/
def jointOf (n : Nat) : Joint :=
  if inRanges alefRanges n then .alef
  else if 0x1F3FB ≤ n && n ≤ 0x1F3FF then .skinTone
  else if n == 0xA4FC || n == 0xA4FD then .lisuTone
  else if n == 0x16D67 then .kiratRaiE
  else if n == 0x16D68 then .kiratRaiAi
  else .plain

/-- The joint that a character offers once it has joined the one behind it, or `none` if the two
do not join. The Kirat Rai signs are a (16D63), e (16D67), ai (16D68) and o (16D69). -/
def join? (n : Nat) (behind : Joint) : Option Joint :=
  match behind with
  | .plain => none
  | .alef => if inRanges lamRanges n then some .plain else none
  | .skinTone => if inRanges skinToneBases n then some .plain else none
  | .lisuTone => if 0xA4F8 ≤ n && n ≤ 0xA4FB then some .plain else none
  | .kiratRaiE =>
    if n == 0x16D63 || n == 0x16D69 then some .plain
    else if n == 0x16D67 then some .kiratRaiAi
    else none
  | .kiratRaiAi => if n == 0x16D63 then some .plain else none

/-- The sign ai in front of e is seen as an e there. -/
def displacedJoint (n : Nat) (behind : Joint) : Joint :=
  if n == 0x16D68 && behind = .kiratRaiE then .kiratRaiE else jointOf n

/-! ## Cells -/

/-- The number of cells of a character that stands alone. -/
def cellWidth (n : Nat) : Nat :=
  if n == 0x17D8 then 3
  else if n == 0x17A4 then 2
  else if inRanges zeroWidthRanges n then 0
  else if inRanges wideRanges n then 2
  else 1

/-- The cells that a character adds in front of a text, and the joint that it offers in turn.
ASCII, the largest part of all text, is decided before the tables. -/
def place (c : Char) (behind : Joint) : Nat × Joint :=
  let n := c.toNat
  if n ≤ 0xA0 then (1, .plain)
  else
    match join? n behind with
    | some joint => (0, joint)
    | none => (cellWidth n, displacedJoint n behind)

/-- The cells that a text takes, and the joint that it offers to a character in front of it. -/
def extent : List Char → Nat × Joint
  | [] => (0, .plain)
  | c :: rest =>
    let behind := extent rest
    let placed := place c behind.2
    (placed.1 + behind.1, placed.2)

/-- The number of terminal cells that a text takes. -/
def displayWidth (s : List Char) : Nat := (extent s).1

/-! ## Padding -/

theorem place_space (behind : Joint) : place ' ' behind = (1, .plain) := rfl

theorem extent_spaces (k : Nat) : extent (List.replicate k ' ') = (k, .plain) := by
  induction k with
  | zero => rfl
  | succ k ih => rw [List.replicate_succ, extent, ih, place_space, Nat.add_comm]

theorem extent_append_spaces (s : List Char) (k : Nat) :
    extent (s ++ List.replicate k ' ') = ((extent s).1 + k, (extent s).2) := by
  induction s with
  | nil => rw [List.nil_append, extent_spaces, extent, Nat.zero_add]
  | cons c s ih => rw [List.cons_append, extent, ih, extent, Nat.add_assoc]

/-- Each space of padding adds one cell, whatever it follows. -/
theorem displayWidth_append_spaces (s : List Char) (k : Nat) :
    displayWidth (s ++ List.replicate k ' ') = displayWidth s + k := by
  rw [displayWidth, extent_append_spaces, displayWidth]

end Admission.Text
