import Admission.Session.Call
import Admission.Session.Clock
import Admission.Session.Handle
import Admission.Session.Status

/-!
# Steps

A session is driven by steps: calls, cancellations, releases, moves of the clock, changes of
capacity and policy, and questions. `Session.step` performs one and settles; its answer holds the
result of the step, the events, and the three counts that a status would show afterwards.
-/

set_option autoImplicit false

namespace Admission

/-- One thing that is done to a session. -/
inductive Step where
  /-- Call for a slot of an entry, to be cancelled by a token and, with a deadline, by itself. -/
  | wait (e : Entry) (reason : String) (priority : Priority) (token : String)
      (deadline : Option Span)
  /-- Cancel a token and all calls under it, also later ones. -/
  | cancel (token : String)
  /-- Give up a call that waits. -/
  | abandon (id : Nat)
  /-- Release a handle and keep it. -/
  | finish (id : Nat)
  /-- Release a handle and keep it, from outside the scheduler. The system has a thread for it. -/
  | finishDetached (id : Nat)
  /-- Drop a handle. -/
  | drop (id : Nat)
  /-- Lose a handle in a failure of its caller. -/
  | lose (id : Nat)
  /-- Ask a handle what it knows. -/
  | view (id : Nat)
  /-- Move the clock forward, in milliseconds. -/
  | advance (ms : Nat)
  | setCapacity (c : Capacity)
  | setPolicy (p : Policy)
  /-- Ask for the capacity. -/
  | capacity
  /-- Ask how many wait for an entry. -/
  | waitingFor (e : Entry)
  /-- Ask for the status as JSON. -/
  | statusJson
  /-- Ask for the status as text. -/
  | statusText
  /-- Ask for the short form of the controller. -/
  | debug
deriving DecidableEq

/-- The result of a step. -/
inductive Reply where
  | nothing
  /-- The number of a new call. -/
  | started (id : Nat)
  /-- The call to be given up does not wait. -/
  | notPending
  /-- The caller has no handle. -/
  | noHandle
  | failed (f : Failure)
  | handle (v : HandleView)
  /-- The clock after a move. -/
  | clock (ms : Nat)
  | capacity (c : Capacity)
  | count (n : Nat)
  | text (s : String)
deriving DecidableEq

/-- The result of a step that may fail. -/
def Reply.ofFailure : Option Failure → Reply
  | none => .nothing
  | some failure => .failed failure

/-- What a step answers. -/
structure Answer where
  reply : Reply
  events : List Event
  numEntries : Nat
  numWaiting : Nat
  numHolders : Nat
deriving DecidableEq

namespace Answer

/-- The calls that were settled during the step, in the order in which they were. -/
def settled (a : Answer) : List Settled := a.events.filterMap Event.settled?

/-- The log of the step. -/
def log (a : Answer) : List LogLine :=
  (a.events.filter fun event => !event.isScheduling).map Event.record

end Answer

namespace Session

/-! ## One step -/

/-- Does something with a handle, if the caller has it. -/
def withHandle (s : Session) (id : Nat) (act : Wait → Session × Reply × List Event) :
    Session × Reply × List Event :=
  match s.held? id with
  | none => (s, .noHandle, [])
  | some w => act w

/-- The effect of a step before the session settles. -/
def perform (s : Session) : Step → Session × Reply × List Event
  | .wait e reason priority token deadline =>
    let w := s.newWait e reason priority token deadline
    let (s', events) := s.start w
    (s', .started w.ticket.id, events)
  | .cancel token => ({ s with cancelledTokens := token :: s.cancelledTokens }, .nothing, [])
  | .abandon id =>
    match s.pending? id with
    | none => (s, .notPending, [])
    | some w =>
      let (s', events) := s.abandon w
      (s', .nothing, events)
  | .finish id =>
    s.withHandle id fun w =>
      let (s', failure, events) := s.finish w
      (s', .ofFailure failure, events)
  | .finishDetached id =>
    s.withHandle id fun w =>
      let (s', failure, events) := s.finishDetached w none
      (s', .ofFailure failure, events)
  | .drop id =>
    s.withHandle id fun w =>
      let (s', events) := s.drop w
      (s', .nothing, events)
  | .lose id =>
    s.withHandle id fun w =>
      let (s', events) := s.lose w
      (s', .failed .callerFailed, events)
  | .view id => s.withHandle id fun w => (s, .handle w.view, [])
  | .advance ms =>
    let (s', events) := s.advance ms
    (s', .clock s'.clock, events)
  | .setCapacity c =>
    (s.withController (s.controller.apply (.setCapacity c)), .nothing, [.capacityChanged c])
  | .setPolicy p => (s.withController (s.controller.apply (.setPolicy p)), .nothing, [])
  | .capacity => (s, .capacity s.controller.capacity, [])
  | .waitingFor e => (s, .count (s.controller.waiting.waitingFor e), [])
  | .statusJson => (s, .text s.status.json.compact, [])
  | .statusText => (s, .text s.status.text, [])
  | .debug => (s, .text s.controller.debug, [])

/-- Performs a step and settles. -/
def step (s : Session) (what : Step) : Session × Answer :=
  let (s₁, reply, events) := s.perform what
  let (s₂, later) := s₁.settle
  (s₂,
    { reply := reply
      events := events ++ later
      numEntries := s₂.controller.numEntries
      numWaiting := s₂.controller.waiting.size
      numHolders := s₂.controller.numHolders })

/-- Performs steps one after another. -/
def run (s : Session) : List Step → Session × List Answer
  | [] => (s, [])
  | what :: rest =>
    let (s₁, answer) := s.step what
    let (s₂, answers) := run s₁ rest
    (s₂, answer :: answers)

end Session

end Admission
