import Admission.Capacity
import Admission.Json.Reader
import Admission.Status
import Admission.Ticket

/-!
# Entries, priorities and capacities as JSON

How the values that callers exchange are written and read. An entry is an object with three texts;
it may also be given as a list of exactly three. Its fields may come in any order, each once, and
other fields are skipped. A priority is a number of 32 bits. A capacity is the text `unlimited`, or
an object with one field: `limited` and a number, or `unlimited` and null.
-/

set_option autoImplicit false

namespace Admission

open Json

/-! ## Entries -/

namespace Entry

/-- The fields of an entry. -/
inductive Field where
  | protocol
  | localAddr
  | remoteAddr
deriving DecidableEq, Repr

/-- The field with a given name. -/
def Field.ofName? (name : List Char) : Option Field :=
  if name = "protocol".toList then some .protocol
  else if name = "local_addr".toList then some .localAddr
  else if name = "remote_addr".toList then some .remoteAddr
  else none

/-- The fields that have been read so far. -/
structure Partial where
  protocol : Option (List Char)
  localAddr : Option (List Char)
  remoteAddr : Option (List Char)

namespace Partial

def empty : Partial := ⟨none, none, none⟩

def get (p : Partial) : Field → Option (List Char)
  | .protocol => p.protocol
  | .localAddr => p.localAddr
  | .remoteAddr => p.remoteAddr

def set (p : Partial) (value : List Char) : Field → Partial
  | .protocol => { p with protocol := some value }
  | .localAddr => { p with localAddr := some value }
  | .remoteAddr => { p with remoteAddr := some value }

/-- The entry, if all its fields have been read. -/
def entry? (p : Partial) : Option Entry :=
  match p.protocol, p.localAddr, p.remoteAddr with
  | some protocol, some localAddr, some remoteAddr =>
    some ⟨String.ofList protocol, String.ofList localAddr, String.ofList remoteAddr⟩
  | _, _, _ => none

end Partial

/-- Where the next field of an object begins, or that there is none. The result is the text behind
the quotation mark of its name. -/
def nextField (first : Bool) (s : List Char) : Parsed Bool :=
  match skipBlank s with
  | [] => .error .truncated
  | '}' :: rest => .ok (false, rest)
  | ',' :: rest =>
    if first then .error .malformed
    else
      match skipBlank rest with
      | [] => .error .truncated
      | '"' :: rest => .ok (true, rest)
      | _ => .error .malformed
  | '"' :: rest => if first then .ok (true, rest) else .error .malformed
  | _ => .error .malformed

/-- Reads the value of a field whose name is `name`, from the colon on. -/
def readField (p : Partial) (name : List Char) (s : List Char) : Parsed Partial :=
  match Field.ofName? name with
  | none =>
    match expectColon s with
    | .error f => .error f
    | .ok rest =>
      match skipValue rest with
      | .error f => .error f
      | .ok rest => .ok (p, rest)
  | some field =>
    -- A field that comes twice is a fault as soon as its name is read.
    if (p.get field).isSome then .error .mismatched
    else
      match expectColon s with
      | .error f => .error f
      | .ok rest =>
        match readString rest with
        | .error f => .error f
        | .ok (value, rest) => .ok (p.set value field, rest)

/-- Reads the fields of an object, at most `fuel` of them. -/
def readFields : Nat → Bool → Partial → List Char → Parsed Entry
  | 0, _, _, _ => .error .truncated
  | fuel + 1, first, p, s =>
    match nextField first s with
    | .error f => .error f
    | .ok (false, rest) =>
      match p.entry? with
      | some e => .ok (e, rest)
      | none => .error .mismatched
    | .ok (true, rest) =>
      match readText rest with
      | .error f => .error f
      | .ok (name, rest) =>
        match readField p name rest with
        | .error f => .error f
        | .ok (p, rest) => readFields fuel false p rest

/-- Reads the next text of a list. A list that ends too soon is of another kind. -/
def readElement (first : Bool) (s : List Char) : Parsed (List Char) :=
  match skipBlank s with
  | [] => .error .truncated
  | ']' :: _ => .error .mismatched
  | c :: rest =>
    if first then readString (c :: rest)
    else if c = ',' then
      match skipBlank rest with
      | [] => .error .truncated
      | ']' :: _ => .error .malformed
      | s => readString s
    else .error .malformed

/-- Expects the end of a list. -/
def expectListEnd (s : List Char) : Except Fault (List Char) :=
  match skipBlank s with
  | [] => .error .truncated
  | ']' :: rest => .ok rest
  | _ => .error .malformed

/-- Reads the three texts of a list. -/
def readList (s : List Char) : Parsed Entry :=
  match readElement true s with
  | .error f => .error f
  | .ok (protocol, s) =>
    match readElement false s with
    | .error f => .error f
    | .ok (localAddr, s) =>
      match readElement false s with
      | .error f => .error f
      | .ok (remoteAddr, s) =>
        match expectListEnd s with
        | .error f => .error f
        | .ok s =>
          .ok (⟨String.ofList protocol, String.ofList localAddr, String.ofList remoteAddr⟩, s)

/-- Reads an entry. -/
def read (s : List Char) : Parsed Entry :=
  match skipBlank s with
  | [] => .error .truncated
  | '[' :: rest => readList rest
  | '{' :: rest => readFields (rest.length + 1) true .empty rest
  | s => .error (wrongKind s)

/-- The entry that a whole JSON text denotes. -/
def ofJson (s : String) : Except Fault Entry := expectEnd (read s.toList)

end Entry

/-! ## Priorities -/

namespace Priority

def json (p : Priority) : Value := .num p.value

/-- Reads a priority. -/
def read (s : List Char) : Parsed Priority :=
  match readInt (-2147483648) 2147483648 s with
  | .error f => .error f
  | .ok (n, rest) =>
    match ofInt? n with
    | some p => .ok (p, rest)
    | none => .error .mismatched

/-- The priority that a whole JSON text denotes. -/
def ofJson (s : String) : Except Fault Priority := expectEnd (read s.toList)

end Priority

/-! ## Capacities -/

namespace Capacity

def json : Capacity → Value
  | limited slots => .obj [("limited", .num slots.toNat)]
  | unlimited => .str "unlimited"

/-- The two kinds of capacity. -/
inductive Kind where
  | limited
  | unlimited
deriving DecidableEq, Repr

/-- The kind with a given name. -/
def Kind.ofName? (name : List Char) : Option Kind :=
  if name = "limited".toList then some .limited
  else if name = "unlimited".toList then some .unlimited
  else none

/-- Reads the value that belongs to a kind. -/
def readPayload (kind : Kind) (s : List Char) : Parsed Capacity :=
  match kind with
  | .limited =>
    match readInt 0 UInt64.size s with
    | .error f => .error f
    | .ok (n, rest) => .ok (limited (UInt64.ofNat n.toNat), rest)
  | .unlimited =>
    match readNull s with
    | .error f => .error f
    | .ok rest => .ok (unlimited, rest)

/-- Expects the end of the object with the one field. -/
def expectObjectEnd {α : Type} : Parsed α → Parsed α
  | .error f => .error f
  | .ok (a, s) =>
    match skipBlank s with
    | [] => .error .truncated
    | '}' :: rest => .ok (a, rest)
    | _ => .error .malformed

/-- Reads the name of a kind, from behind its quotation mark. -/
def readKind (s : List Char) : Parsed Kind :=
  match readText s with
  | .error f => .error f
  | .ok (name, rest) =>
    match Kind.ofName? name with
    | some kind => .ok (kind, rest)
    | none => .error .mismatched

/-- Reads the name of the one field of an object. Only a text can be a name; anything else breaks
the rules, whatever it is. -/
def readKindName (s : List Char) : Parsed Kind :=
  match skipBlank s with
  | [] => .error .truncated
  | '"' :: rest => readKind rest
  | _ => .error .malformed

/-- Reads a capacity. Only a text and an object can be one; anything else breaks the rules. -/
def read (s : List Char) : Parsed Capacity :=
  match skipBlank s with
  | [] => .error .truncated
  | '"' :: rest =>
    match readKind rest with
    | .error f => .error f
    | .ok (.limited, _) => .error .mismatched
    | .ok (.unlimited, rest) => .ok (unlimited, rest)
  | '{' :: rest =>
    match readKindName rest with
    | .error f => .error f
    | .ok (kind, rest) =>
      match expectColon rest with
      | .error f => .error f
      | .ok rest => expectObjectEnd (readPayload kind rest)
  | _ => .error .malformed

/-- The capacity that a whole JSON text denotes. -/
def ofJson (s : String) : Except Fault Capacity := expectEnd (read s.toList)

end Capacity

end Admission
