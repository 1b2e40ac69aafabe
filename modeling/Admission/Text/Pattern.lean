import Admission.Text.Pattern.Class
import Admission.Text.Pattern.Group

/-!
# Is a text a pattern?

A pattern is a regular expression. What it matches is of no interest here, only whether a text is
one: its groups and classes are closed, each repetition has something to repeat, each escape is
known, no two groups have one name, the modes allow what stands in it, and it is not nested too
deeply. A pattern that asks where words of all scripts begin and end is refused with a reason of
its own.

The patterns looked at here come from between braces, where no closing brace follows an opening
one. So an opening brace, with which a count of repetitions would begin, is always a fault.
-/

set_option autoImplicit false

namespace Admission.Text

/-- Why a text is refused as a pattern. -/
inductive PatternFault where
  /-- The text breaks the rules. -/
  | malformed
  /-- The pattern asks for the boundary of a word. -/
  | wordBoundary
deriving DecidableEq, Repr

namespace Pattern

/-! ## What has been read -/

/-- A part of a sequence. -/
structure Part where
  height : Nat
  /-- Can it be repeated? Flags cannot. -/
  isRepeatable : Bool
deriving DecidableEq, Repr

/-- A group that is open, or the whole pattern. -/
structure OpenGroup where
  /-- The parts of the sequence that is being read, the last one first. -/
  parts : List Part
  /-- The heights of the sequences in front of it, from which it is set off by a bar. -/
  choices : List Nat
  modes : Modes

namespace OpenGroup

/-- A group of which nothing has been read. -/
def empty (m : Modes) : OpenGroup := ⟨[], [], m⟩

/-- A group with one more part. -/
def add (g : OpenGroup) (p : Part) : OpenGroup := { g with parts := p :: g.parts }

/-- The height of the sequence that is being read. -/
def sequenceHeight (g : OpenGroup) : Nat := heightOf (g.parts.map (·.height))

/-- A group in which another sequence begins. -/
def branch (g : OpenGroup) : OpenGroup := ⟨[], g.sequenceHeight :: g.choices, g.modes⟩

/-- The height of what stands in a group. -/
def height (g : OpenGroup) : Nat := heightOf (g.sequenceHeight :: g.choices)

/-- A group whose last part is repeated, if it can be. -/
def repeat? (g : OpenGroup) : Option OpenGroup :=
  match g.parts with
  | p :: parts =>
    if p.isRepeatable then some { g with parts := ⟨p.height + 1, true⟩ :: parts } else none
  | [] => none

end OpenGroup

/-- Where the reading of a pattern stands. -/
structure Position where
  /-- The innermost group that is open. -/
  group : OpenGroup
  /-- The groups around it, from the inside out. -/
  outer : List OpenGroup
  /-- The names of groups that were used. -/
  names : List (List Char)
  /-- Was the boundary of a word asked for that takes characters of all scripts? -/
  hasBoundary : Bool

namespace Position

/-- The position at the beginning. -/
def start : Position := ⟨.empty .usual, [], [], false⟩

/-- A position behind one more part. -/
def add (p : Position) (part : Part) : Position := { p with group := p.group.add part }

/-- A position behind an opening parenthesis, unless the name of the group is taken. -/
def open? (p : Position) : Opening → Option Position
  | .flags m => some { p with group := { p.group.add ⟨0, false⟩ with modes := m } }
  | .group none m => some { p with group := .empty m, outer := p.group :: p.outer }
  | .group (some name) m =>
    if p.names.contains name then none
    else some { p with group := .empty m, outer := p.group :: p.outer, names := name :: p.names }

/-- A position behind a closing parenthesis, if a group was open. -/
def close? (p : Position) : Option Position :=
  match p.outer with
  | [] => none
  | parent :: outer =>
    some { p with group := parent.add ⟨p.group.height + 1, true⟩, outer := outer }

/-- A position behind an item, if the modes allow that. -/
def item? (p : Position) (item : Item) : Option Position :=
  if p.group.modes.allows item then
    some { p.add ⟨0, true⟩ with
      hasBoundary := p.hasBoundary || (item = .wordBoundary && p.group.modes.isUnicode) }
  else none

/-- The verdict at the end of the text. -/
def verdict (p : Position) : Except PatternFault Unit :=
  if !p.outer.isEmpty || maxHeight < p.group.height then .error .malformed
  else if p.hasBoundary then .error .wordBoundary
  else .ok ()

end Position

/-! ## Reading -/

/-- Reads the next part of a pattern, from its first character on. -/
def readPart? (p : Position) (c : Char) (rest : List Char) : Option (Position × List Char) :=
  let m := p.group.modes
  match c with
  | '(' =>
    match readOpening? m rest with
    | some (opening, rest) => (p.open? opening).map fun p => (p, rest)
    | none => none
  | ')' => p.close?.map fun p => (p, rest)
  | '|' => some ({ p with group := p.group.branch }, rest)
  | '[' =>
    match openClass? m rest with
    | some (inner, rest) =>
      (readClass? m (rest.length + 1) inner [] rest).map fun (height, rest) =>
        (p.add ⟨height, true⟩, rest)
    | none => none
  | '{' => none
  | '.' => if m.allowsAny then some (p.add ⟨0, true⟩, rest) else none
  | '^' => some (p.add ⟨0, true⟩, rest)
  | '$' => some (p.add ⟨0, true⟩, rest)
  | '\\' =>
    match readEscape? m rest with
    | some (item, rest) => (p.item? item).map fun p => (p, rest)
    | none => none
  | _ =>
    if c = '?' || c = '*' || c = '+' then
      -- A question mark right behind the sign of a repetition belongs to it.
      let rest := if rest.head? = some '?' then rest.tail else rest
      p.group.repeat?.map fun g => ({ p with group := g }, rest)
    else (p.item? (.literal c.toNat false)).map fun p => (p, rest)

/-- Reads a pattern to its end, in at most `fuel` steps. -/
def readAll : Nat → Position → List Char → Except PatternFault Unit
  | 0, _, _ => .error .malformed
  | fuel + 1, p, s =>
    match p.group.modes.skip s with
    | [] => p.verdict
    | c :: rest =>
      match readPart? p c rest with
      | some (p, rest) => readAll fuel p rest
      | none => .error .malformed

/-- Is a text a pattern? -/
def check (s : List Char) : Except PatternFault Unit := readAll (s.length + 1) .start s

end Pattern

end Admission.Text
