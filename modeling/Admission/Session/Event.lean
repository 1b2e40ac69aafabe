import Admission.Log
import Admission.Session.Basic

/-!
# What happens in a session

Whatever happens to a call is recorded as an event. The events are the only trace that a session
leaves: the list of calls that were settled is read off them, and so is the log. `Event.record`
gives the log line of an event, with a severity, a message and named fields.
-/

set_option autoImplicit false

namespace Admission

/-- Something that happened. -/
inductive Event where
  /-- A call was let in; `clock` is the clock then, `waited` the time since the call. -/
  | admitted (t : Ticket) (clock : Nat) (waited : Span)
  /-- A call ended without a slot because it was cancelled. -/
  | cancelled (t : Ticket) (clock : Nat) (waited : Span)
  /-- A call that waited was given up by its caller. -/
  | abandoned (t : Ticket)
  /-- A handle was released for the first time. -/
  | released (t : Ticket) (linger : Span)
  /-- The linger of a release goes beyond the last instant. -/
  | endless (t : Ticket) (linger : Span)
  /-- No thread could be started that waits for the end of a linger. -/
  | threadRefused (t : Ticket) (error : String)
  /-- A released ticket left its entry; `freed` says whether that freed the entry. -/
  | expired (t : Ticket) (freed : Bool)
  /-- A handle was dropped that had not been released. -/
  | droppedHeld (t : Ticket)
  /-- A handle was released that had been released before. -/
  | releasedAgain (t : Ticket)
  /-- The policy gave no answer for a handle that was dropped. -/
  | policyFailed (t : Ticket)
  | capacityChanged (c : Capacity)
  /-- A call has to wait after its first evaluation. Of later evaluations that leave it waiting
  nothing is recorded: how many there are depends on who runs when. -/
  | blocked (t : Ticket)
  /-- The deadline of a call has passed. -/
  | deadlineReached (t : Ticket) (deadline : Span)
deriving DecidableEq

/-- How a call was settled. -/
inductive Outcome where
  | admitted
  | cancelled
deriving DecidableEq, Repr

/-- A call that was settled: its number, how, and the clock then. -/
structure Settled where
  id : Nat
  outcome : Outcome
  clock : Nat
deriving DecidableEq, Repr

namespace Outcome

def text : Outcome → String
  | admitted => "admitted"
  | cancelled => "cancelled"

end Outcome

namespace Event

/-- The call that an event settles, if it settles one. -/
def settled? : Event → Option Settled
  | admitted t clock _ => some ⟨t.id, .admitted, clock⟩
  | cancelled t clock _ => some ⟨t.id, .cancelled, clock⟩
  | _ => none

/-- Does the event only say why a call is evaluated again, or that it will be? The log of a step
leaves such events out. -/
def isScheduling : Event → Bool
  | blocked _ => true
  | deadlineReached _ _ => true
  | _ => false

end Event

/-! ## The log -/

namespace Ticket

/-- The name of a ticket in the log. -/
def handleName (t : Ticket) : String := "h" ++ toString t.id

/-- The fields that name a ticket and its entry. -/
def logFields (t : Ticket) : List (String × LogValue) :=
  [("entry", .text t.entry.text), ("handle", .text t.handleName)]

end Ticket

namespace Event

/-- The fields of a call that has waited. -/
def waitedFields (t : Ticket) (waited : Span) : List (String × LogValue) :=
  [("reason", .text t.reason), ("priority", .text t.priority.text), ("waited", .text waited.text)]

/-- The module of the library that reports an event. -/
def part : Event → String
  | released _ _ => "handle"
  | endless _ _ => "handle"
  | threadRefused _ _ => "handle"
  | droppedHeld _ => "handle"
  | releasedAgain _ => "handle"
  | policyFailed _ => "handle"
  | deadlineReached _ _ => "cancel"
  | blocked _ => "store"
  | _ => "instance"

/-- The target of the log line of an event. -/
def target (e : Event) : String := libraryTarget ++ "::" ++ e.part

/-- How important an event is. -/
def severity : Event → Severity
  | endless _ _ => .warn
  | threadRefused _ _ => .error
  | policyFailed _ => .error
  | releasedAgain _ => .trace
  | blocked _ => .trace
  | deadlineReached _ _ => .trace
  | _ => .debug

/-- What the log says of an event. -/
def message : Event → String
  | admitted _ _ _ => "Entry admitted"
  | cancelled _ _ _ => "Wait cancelled before admission"
  | abandoned _ => "Abandoned wait deregistered"
  | released _ _ => "Handle released"
  | endless _ _ => "Linger out of clock range - slot stays occupied"
  | threadRefused _ _ => "Failed to start expiry thread - freeing slot now"
  | expired _ _ => "Handle expired"
  | droppedHeld _ => "EntryHandle dropped without done() - releasing"
  | releasedAgain _ => "Handle already released"
  | policyFailed _ => "Timeout policy panicked - using default linger"
  | capacityChanged _ => "Capacity changed"
  | blocked _ => "Transaction blocked, waiting for state change"
  | deadlineReached _ _ => "Deadline reached"

/-- The fields of an event in the log. The number of evaluations that left a call waiting is one, as
no more than the first of them is recorded. -/
def fields : Event → List (String × LogValue)
  | admitted t _ waited => t.logFields ++ waitedFields t waited
  | cancelled t _ waited => ("entry", .text t.entry.text) :: waitedFields t waited
  | released t linger =>
    t.logFields ++ [("reason", .text t.reason), ("linger", .text linger.text)]
  | endless t linger => t.logFields ++ [("linger", .text linger.text)]
  | threadRefused t error => t.logFields ++ [("error", .text error)]
  | expired t freed => t.logFields ++ [("freed", .flag freed)]
  | abandoned t | droppedHeld t | releasedAgain t | policyFailed t => t.logFields
  | capacityChanged c => [("capacity", .text c.debug)]
  | blocked _ => [("retries", .number 1)]
  | deadlineReached _ deadline => [("timeout", .text deadline.text)]

/-- The log line of an event. -/
def record (e : Event) : LogLine := ⟨e.severity, e.target, e.message, e.fields⟩

end Event

end Admission
