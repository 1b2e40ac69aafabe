import Admission.Decimal.Literal
import Admission.Decimal.Numeral
import Admission.Log
import Admission.Text.Blank
import Admission.Text.Cut
import Admission.Text.Pattern

/-!
# The parts of a log filter

A directive is written `target[span{field=value}]=threshold`, and nearly everything in it may be
left out: a threshold alone is a directive, and so is a target alone, which is then shown in full.
A threshold is a word in any case, or a number from 0 (nothing) to 5 (everything).

The parts of a directive are found in the text without its blank ends. They are cut, however, at
the same places from the text as it was written, so that blanks in front move every part, and
blanks behind belong to the last one. Places are counted in bytes; a directive is malformed if one
of them falls into a character.
-/

set_option autoImplicit false

namespace Admission

/-- The least severe rank that is shown: 0 shows nothing. -/
abbrev Threshold := Nat

/-- What a directive asks of the fields of a line. -/
structure FieldCondition where
  name : List Char
  /-- Is a value asked for? -/
  hasValue : Bool
deriving DecidableEq, Repr

/-- A part of a filter. -/
structure Directive where
  /-- The beginning of the targets that are meant; the empty one is a beginning of all targets. -/
  target : List Char
  /-- The name of the spans that are meant. -/
  span : Option (List Char)
  field : Option FieldCondition
  threshold : Threshold
deriving DecidableEq, Repr

/-- Why a directive cannot be read. -/
inductive DirectiveError where
  | malformed
  | threshold
  /-- The value asked of a field is no pattern. -/
  | pattern (fault : Text.PatternFault)
deriving DecidableEq, Repr

/-- The message of an error. -/
def DirectiveError.message : DirectiveError → String
  | malformed => "invalid filter directive"
  | threshold =>
    "error parsing level filter: expected one of \"off\", \"error\", \"warn\", \"info\", " ++
      "\"debug\", \"trace\", or a number 0-5"
  | pattern .malformed => "invalid field filter: error building NFA"
  | pattern .wordBoundary =>
    "invalid field filter: unsupported regex feature for DFAs: cannot build DFAs for regexes " ++
      "with Unicode word boundaries; switch to ASCII word boundaries, or heuristically enable " ++
      "Unicode word boundaries or use a different regex engine"

namespace Directive

/-! ## Cutting -/

/-- The part of a text from one byte to another one. -/
def slice (s : List Char) (first last : Nat) : Except DirectiveError (List Char) :=
  match Text.splitAtByte? s last with
  | some (front, _) =>
    match Text.splitAtByte? front first with
    | some (_, part) => .ok part
    | none => .error .malformed
  | none => .error .malformed

/-- The part of a text from a byte on. -/
def sliceFrom (s : List Char) (first : Nat) : Except DirectiveError (List Char) :=
  match Text.splitAtByte? s first with
  | some (_, part) => .ok part
  | none => .error .malformed

/-! ## Thresholds -/

/-- The threshold that shows everything. -/
def everything : Threshold := Severity.trace.rank

/-- The words for thresholds. -/
def thresholdWords : List (String × Threshold) :=
  [("off", 0), ("error", 1), ("warn", 2), ("info", 3), ("debug", 4), ("trace", 5)]

/-- Reads a threshold. -/
def threshold? (s : List Char) : Option Threshold :=
  match Decimal.readWord? s with
  | some n => if n.toNat ≤ everything then some n.toNat else none
  | none => thresholdWords.lookup (String.ofList (s.map Char.toLower))

/-- Reads what stands behind an equals sign: a threshold, or nothing, which shows everything. -/
def readThreshold (s : List Char) : Except DirectiveError Threshold :=
  if s.isEmpty then .ok everything
  else
    match threshold? s with
    | some t => .ok t
    | none => .error .threshold

/-! ## Fields -/

/-- The words for numbers that have no digits. -/
def numberWords : List String := ["inf", "infinity", "nan"]

/-- Is a text a truth value or a number? -/
def isPlainValue (s : List Char) : Bool :=
  s = "true".toList || s = "false".toList || (Decimal.Literal.read? s).isSome ||
    numberWords.contains (String.ofList ((Decimal.takeSign s).2.map Char.toLower))

/-- Reads what is asked of a field: its name, and with an equals sign its value, which is a pattern
if it is nothing simpler. What stands behind a second equals sign is left out. -/
def readField (s : List Char) : Except DirectiveError FieldCondition :=
  let name := s.takeWhile (· ≠ '=')
  match s.dropWhile (· ≠ '=') with
  | [] => .ok ⟨name, false⟩
  | _ :: rest =>
    let value := rest.takeWhile (· ≠ '=')
    if isPlainValue value then .ok ⟨name, true⟩
    else
      match Text.Pattern.check value with
      | .ok _ => .ok ⟨name, true⟩
      | .error fault => .error (.pattern fault)

/-! ## Directives

In what follows `raw` is the whole directive as it was written, `s` is what is left to read of it
without its blank ends, and `place` is the number of bytes that were read before. -/

/-- Reads the threshold behind a bracket that is closed. -/
def readTail (raw : List Char) (place : Nat) : List Char → Except DirectiveError Threshold
  | [] => .ok everything
  | '=' :: _ => do readThreshold (← sliceFrom raw (place + 1))
  | _ => .error .malformed

/-- Reads a field from behind its opening brace. -/
def readBraces (raw target : List Char) (span : Option (List Char)) (place : Nat) (s : List Char) :
    Except DirectiveError Directive := do
  let field := s.takeWhile (· ≠ '}')
  let last := place + Text.byteLength field
  match s.dropWhile (· ≠ '}') with
  | [] => .error .malformed
  | _ :: rest =>
    if field.isEmpty then .error .malformed
    else
      let field ← readField (← slice raw place last)
      match rest with
      | ']' :: tail =>
        let threshold ← readTail raw (last + 2) tail
        return ⟨target, span, some field, threshold⟩
      | _ => .error .malformed

/-- Reads the inside of brackets from behind the opening one. -/
def readBrackets (raw target : List Char) (place : Nat) (s : List Char) :
    Except DirectiveError Directive := do
  let isEnd (c : Char) : Bool := c = ']' || c = '\x7b'
  let last := place + Text.byteLength (s.takeWhile fun c => !isEnd c)
  match s.dropWhile fun c => !isEnd c with
  | [] => .error .malformed
  | ']' :: tail =>
    let span ← slice raw place last
    let threshold ← readTail raw (last + 1) tail
    return ⟨target, some span, none, threshold⟩
  | _ :: rest =>
    let span ← slice raw place last
    readBraces raw target (if span.isEmpty then none else some span) (last + 1) rest

/-- May a directive begin with this character? -/
def mayBegin (c : Char) : Bool :=
  c = '[' || c = '-' || c = ':' || c = '_' || Text.isAlphanumeric c

/-- A directive that is neither followed by a threshold nor by brackets: a threshold, if it can be
read as one, and otherwise a target. -/
def ofWord (s : List Char) : Directive :=
  match threshold? s with
  | some t => ⟨[], none, none, t⟩
  | none => ⟨s, none, none, everything⟩

/-- Reads a directive. -/
def read (raw : List Char) : Except DirectiveError Directive := do
  let s := Text.trim raw
  if !s.head?.any mayBegin then .error .malformed
  else
    let isEnd (c : Char) : Bool := c = '=' || c = '['
    let last := Text.byteLength (s.takeWhile fun c => !isEnd c)
    match s.dropWhile fun c => !isEnd c with
    | [] => return ofWord raw
    | '=' :: _ =>
      let target ← slice raw 0 last
      let threshold ← readThreshold (← sliceFrom raw (last + 1))
      return ⟨target, none, none, threshold⟩
    | _ :: rest => readBrackets raw (← slice raw 0 last) (last + 1) rest

/-! ## Which lines are meant -/

/-- Does a directive decide about single lines? One that asks for a span, or for a value of a
field, is about what happens inside of spans, and no line of this program does. -/
def isAboutLines (d : Directive) : Bool := d.span.isNone && d.field.all fun f => !f.hasValue

/-- Does a directive decide about a line? -/
def covers (d : Directive) (l : LogLine) : Bool :=
  d.isAboutLines && d.target.isPrefixOf l.target.toList &&
    d.field.all fun f => l.fieldNames.contains (String.ofList f.name)

/-- Is `d` at least as specific as `e`? A longer target counts most, then a field counts more than
none, and the name of the field decides between two. -/
def isAsSpecificAs (d e : Directive) : Bool :=
  if d.target.length = e.target.length then
    match d.field, e.field with
    | _, none => true
    | none, some _ => false
    | some f, some g => String.ofList g.name ≤ String.ofList f.name
  else e.target.length < d.target.length

end Directive

end Admission
