import Admission.Text.Alphanumeric
import Admission.Text.Pattern.Modes

/-!
# The beginning of a group

Behind the parenthesis that opens a group a question mark may follow, and then a name, or flags for
the group. A parenthesis with nothing but flags is no group; its flags hold up to the end of the
group around it.
-/

set_option autoImplicit false

namespace Admission.Text.Pattern

/-- What an opening parenthesis begins. -/
inductive Opening where
  /-- A group, with its name if it has one, in which these modes hold. -/
  | group (name : Option (List Char)) (m : Modes)
  /-- Flags, after which these modes hold. -/
  | flags (m : Modes)
deriving DecidableEq, Repr

/-- May a name of a group begin with this character? -/
def mayBeginName (c : Char) : Bool := c = '_' || isAlphabetic c

/-- May a name of a group contain this character? -/
def mayBeInName (c : Char) : Bool := ['_', '.', '[', ']'].contains c || isAlphanumeric c

/-- Reads the name of a group, up to the angle bracket that ends it. -/
def readName? (s : List Char) : Option (List Char × List Char) :=
  match s.takeWhile (· ≠ '>'), s.dropWhile (· ≠ '>') with
  | c :: more, _ :: rest =>
    if mayBeginName c && more.all mayBeInName then some (c :: more, rest) else none
  | _, _ => none

/-- Reads flags, and what ends them. -/
def readFlags? (m : Modes) (s : List Char) : Option (Opening × List Char) :=
  let isEnd (c : Char) : Bool := c = ':' || c = ')'
  let flags := s.takeWhile fun c => !isEnd c
  if areFlags flags then
    match s.dropWhile fun c => !isEnd c with
    | ':' :: rest => some (.group none (m.set true flags), rest)
    | ')' :: rest => if flags.isEmpty then none else some (.flags (m.set true flags), rest)
    | _ => none
  else none

/-- Reads the beginning of a group from behind its parenthesis. -/
def readOpening? (m : Modes) (s : List Char) : Option (Opening × List Char) :=
  let named (s : List Char) : Option (Opening × List Char) :=
    (readName? s).map fun (name, rest) => (.group (some name) m, rest)
  match m.skip s with
  | '?' :: 'P' :: '<' :: rest => named rest
  | '?' :: '<' :: rest => named rest
  | '?' :: rest => readFlags? m rest
  | rest => some (.group none m, rest)

end Admission.Text.Pattern
