import Admission.Entry
import Admission.Json.Value
import Admission.Span
import Admission.Text.Columns

/-!
# A picture of the controller at one moment

A status says how many entries are occupied, how many callers wait and for which reasons, and who
holds each entry: for how long already, and, once released, how much longer.

It is shown in two ways. The text is for people: two tables, with every foreign string quoted, so
that no name can disturb the layout or pass for something else. The JSON form is for programs: it
has the same content, with lengths of time in whole milliseconds.
-/

set_option autoImplicit false

namespace Admission

/-- One ticket that holds an entry. -/
structure Holder where
  entry : Entry
  reason : String
  /-- `none` until the ticket is released, then the time that is left; `Span.longest` if the slot
  is never freed. -/
  expiresIn : Option Span
  /-- The time since the caller asked. -/
  age : Span
deriving DecidableEq

/-- The controller at one moment. -/
structure Status where
  numEntries : Nat
  numWaiting : Nat
  /-- How many wait for each reason. -/
  waitingByReason : List (String × Nat)
  holders : List Holder
deriving DecidableEq

/-! ## Text -/

namespace Holder

/-- When the slot is freed, as a cell of the table. -/
def expiryText (h : Holder) : String :=
  match h.expiresIn with
  | none => "not done"
  | some s => if s = Span.longest then "never" else s.text

/-- The cells of a holder's row. -/
def cells (h : Holder) : List String :=
  [Text.quote h.entry.protocol, Text.quote h.entry.localAddr, Text.quote h.entry.remoteAddr,
    Text.quote h.reason, h.expiryText, h.age.text ++ " ago"]

/-- The header of the table of holders. -/
def header : List String := ["protocol", "local", "remote", "reason", "expires", "created"]

end Holder

namespace Status

/-- The header of the table of reasons. -/
def reasonHeader : List String := ["num", "reason"]

/-- The cells of a reason's row. -/
def reasonCells (row : String × Nat) : List String := [toString row.2, Text.quote row.1]

/-- The lines of the text form. -/
def lines (s : Status) : List (List Char) :=
  [("num entries: " ++ toString s.numEntries).toList, [],
    (toString s.numWaiting ++ " waiters:").toList] ++
  Text.tableLines reasonHeader (s.waitingByReason.map reasonCells) ++
  [[], "handles:".toList] ++
  Text.tableLines Holder.header (s.holders.map Holder.cells)

/-- The status for people, each line ended by a line break. -/
def text (s : Status) : String := String.ofList (s.lines.flatMap fun line => line ++ ['\n'])

end Status

/-! ## JSON -/

/-- Whole milliseconds, or the largest number of 64 bits if there are more. -/
def Span.jsonMillis (s : Span) : Nat := min s.wholeMillis (UInt64.size - 1)

/-- An entry with its fields in order. -/
def Entry.json (e : Entry) : Json.Value :=
  .obj [("protocol", .str e.protocol), ("local_addr", .str e.localAddr),
    ("remote_addr", .str e.remoteAddr)]

/-- The time that is left, and null as long as the ticket is not released. -/
def Holder.expiryJson (h : Holder) : Json.Value :=
  match h.expiresIn with
  | none => .null
  | some s => .num s.jsonMillis

def Holder.json (h : Holder) : Json.Value :=
  .obj [("entry", h.entry.json), ("reason", .str h.reason), ("expires_in_ms", h.expiryJson),
    ("age_ms", .num h.age.jsonMillis)]

/-- A reason and how many wait for it. -/
def Status.reasonJson (row : String × Nat) : Json.Value :=
  .obj [("reason", .str row.1), ("waiters", .num row.2)]

/-- The status for programs. -/
def Status.json (s : Status) : Json.Value :=
  .obj [("num_entries", .num s.numEntries), ("num_waiters", .num s.numWaiting),
    ("waiters_by_reason", .arr (s.waitingByReason.map Status.reasonJson)),
    ("handles", .arr (s.holders.map Holder.json))]

end Admission
