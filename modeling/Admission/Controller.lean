import Admission.Capacity
import Admission.Policy
import Admission.WaitingRoom

/-!
# The controller and its transactions

Slots are used up by *distinct* entries. A ticket for an entry that is occupied shares the slot at
no cost. A ticket for another entry needs a free slot and must belong to the highest class that
waits: lower classes wait even when there is room, so that they cannot overtake a caller of a
higher class that is about to take it.

Everything the controller does is one of the six transactions below, each of which runs alone.
`Controller.verdict` is the decision, and `Controller.apply` the effect of a transaction; time,
cancellation and timers live outside, in the session that issues the transactions.
-/

set_option autoImplicit false

namespace Admission

/-- What an evaluation of a waiting ticket comes to. -/
inductive Verdict where
  /-- The ticket takes or shares a slot. -/
  | granted
  /-- The ticket was cancelled and no slot was to be had. -/
  | withdrawn
  /-- The ticket goes on waiting. -/
  | blocked
  /-- Nobody waits although a ticket is evaluated. No sequence of requests leads here. -/
  | orphaned
deriving DecidableEq, Repr

/-- The state that transactions read and write. -/
structure Controller where
  capacity : Capacity
  policy : Policy
  /-- The tickets that hold each occupied entry. -/
  occupancy : Buckets Entry
  waiting : WaitingRoom

/-- A change of the controller's state that runs alone. -/
inductive Transaction where
  /-- A new ticket begins to wait. -/
  | register (t : Ticket)
  /-- A waiting ticket is looked at again. -/
  | evaluate (t : Ticket) (cancelled : Bool)
  /-- The caller of a waiting ticket has gone. -/
  | abandon (t : Ticket)
  /-- The linger of a released ticket has run out. -/
  | expire (t : Ticket)
  | setCapacity (c : Capacity)
  | setPolicy (p : Policy)
deriving DecidableEq

namespace Controller

/-- A controller before the first request. -/
def new (capacity : Capacity) (linger : Span) : Controller :=
  { capacity := capacity, policy := .constant linger, occupancy := ∅, waiting := .empty }

/-! ## Observations -/

/-- Does somebody hold the entry? -/
def isOccupied (c : Controller) (e : Entry) : Bool := c.occupancy.contains e

/-- The number of occupied entries. -/
def numEntries (c : Controller) : Nat := c.occupancy.size

/-- The number of tickets that hold an entry. -/
def numHolders (c : Controller) : Nat := c.occupancy.total

/-- Does this ticket hold its entry? -/
def holds (c : Controller) (t : Ticket) : Bool := (c.occupancy.ids t.entry).contains t.id

/-- Is there a free slot? -/
def hasRoom (c : Controller) : Bool := c.capacity.hasRoom c.numEntries

/-! ## The decision -/

/-- What becomes of a waiting ticket if it is evaluated now. -/
def verdict (c : Controller) (t : Ticket) (cancelled : Bool) : Verdict :=
  if c.isOccupied t.entry then .granted
  else
    match c.waiting.topPriority with
    | none => .orphaned
    | some top =>
      if c.hasRoom && t.priority = top then .granted
      else if cancelled then .withdrawn
      else .blocked

/-! ## The transactions -/

/-- Moves a ticket from the waiting room to its entry. -/
def grant (c : Controller) (t : Ticket) : Controller :=
  { c with occupancy := c.occupancy.add t.entry t.id, waiting := c.waiting.leave t }

/-- Takes a ticket out of the waiting room. -/
def withdraw (c : Controller) (t : Ticket) : Controller :=
  { c with waiting := c.waiting.leave t }

/-- Carries a verdict out. -/
def execute (c : Controller) (t : Ticket) : Verdict → Controller
  | .granted => c.grant t
  | .withdrawn => c.withdraw t
  | .blocked => c
  | .orphaned => c

/-- Takes a ticket from its entry, and frees the entry with its last holder. -/
def expire (c : Controller) (t : Ticket) : Controller :=
  { c with occupancy := c.occupancy.remove t.entry t.id }

/-- Would the removal of this ticket free its entry? -/
def wouldFree (c : Controller) (t : Ticket) : Bool :=
  match c.occupancy[t.entry]? with
  | none => false
  | some holders => (holders.erase t.id).isEmpty

/-- The effect of a transaction. -/
def apply (c : Controller) : Transaction → Controller
  | .register t => { c with waiting := c.waiting.enter t }
  | .evaluate t cancelled => c.execute t (c.verdict t cancelled)
  | .abandon t => c.withdraw t
  | .expire t => c.expire t
  | .setCapacity capacity => { c with capacity := capacity }
  | .setPolicy policy => { c with policy := policy }

/-- The effect of transactions one after another. -/
def applyAll (c : Controller) (ts : List Transaction) : Controller := ts.foldl apply c

/-- Has a ticket left all views of the waiting room, and do they agree with each other? -/
def isClearOf (c : Controller) (t : Ticket) : Bool :=
  !c.waiting.contains t.id && c.waiting.isConsistent

/-- The form in which diagnostics show a controller. -/
def debug (c : Controller) : String :=
  "Instance \x7b capacity: " ++ c.capacity.debug ++ ", entries: " ++ toString c.numEntries ++
    ", waiters: " ++ toString c.waiting.size ++ " \x7d"

end Controller

end Admission
