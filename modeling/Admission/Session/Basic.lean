import Admission.Controller

/-!
# A session: the controller, its callers and the clock

A session runs a controller in virtual time. It remembers every call that was ever made (a
`Wait`), numbered in the order of the calls, and knows of each what became of it. From this and
the clock everything else follows: which deadlines have passed, which lingers run, which tokens
are cancelled. There is no separate list of timers to fall out of step with the calls.

The clock counts whole milliseconds. Instants are nanoseconds since the clock started; the last
instant that can be named lies one nanosecond before 2^63 seconds. No timer runs longer than thirty
years (`longestTimer`): a deadline or a linger that is longer is over then, though the clock makes
no stop to see it. Only a linger that is slept through on a thread of its own lasts as long as it
was announced (`Sleep`).
-/

set_option autoImplicit false

namespace Admission

/-- When a released slot is freed. -/
inductive Release where
  /-- At an instant: `announced` is the end of the linger, which the caller is told, and `freed` the
  end of the sleep after which the slot is freed, both in nanoseconds. They differ only if a timer
  does the sleeping and cannot run so long. -/
  | ends (announced freed : Nat)
  /-- Never: the linger goes beyond the last instant. -/
  | endless
deriving DecidableEq, Repr

/-- What became of a call. -/
inductive Phase where
  /-- The caller waits. -/
  | pending
  /-- The caller was let in. `held` says whether it still has its handle, and `release` is set by
  the first release. -/
  | admitted (held : Bool) (release : Option Release)
  /-- The call was cancelled before there was a slot. -/
  | cancelled
  /-- The caller went away while waiting. -/
  | abandoned
deriving DecidableEq

/-- A call for a slot. -/
structure Wait where
  ticket : Ticket
  /-- The name of the token that cancels this call, along with all others under that name. -/
  token : String
  /-- The clock at the call. -/
  startedAt : Nat
  /-- The time after which the call cancels itself. -/
  deadline : Option Span
  phase : Phase
deriving DecidableEq

/-- The first instant that cannot be named: 2^63 seconds after the clock started. -/
def instantBound : Nat := UInt64.size / 2 * Span.nanosPerSecond

/-- The instant after a span, if it can be named. -/
def instantAfter (instant : Nat) (s : Span) : Option Nat :=
  if instant + s.nanos < instantBound then some (instant + s.nanos) else none

/-- The longest time that a timer runs: thirty years of 365 days. -/
def longestTimer : Span := .ofWholeSeconds (30 * 365 * 86400)

/-- The instant of a clock reading. The constant is the first factor: a product unfolds along the
second one, and a million steps are too many for a proof that only looks at the form of an
answer. -/
def instantOfMillis (ms : Nat) : Nat := Span.nanosPerMilli * ms

/-- The last instant at which a timer ends, which is three milliseconds before the clock has no more
numbers of 64 bits. -/
def lastTimerEnd : Nat := instantOfMillis (UInt64.size - 3)

/-- The end of a timer that is set at an instant for a span, which is cut to the longest time that a
timer runs, and to the last instant at which one ends. -/
def timerEnd (instant : Nat) (s : Span) : Nat :=
  min (instant + min s.nanos longestTimer.nanos) lastTimerEnd

/-- Who sleeps through a linger, to free the slot at its end. -/
inductive Sleep where
  /-- A timer of the scheduler, if the handle is released from within it. -/
  | timer
  /-- A thread of its own, if the handle is released from outside. -/
  | thread
deriving DecidableEq, Repr

/-- The end of a sleep that begins at an instant. A thread sleeps as long as it is told. -/
def Sleep.endAfter (sleep : Sleep) (instant : Nat) (s : Span) : Nat :=
  match sleep with
  | timer => timerEnd instant s
  | thread => instant + s.nanos

/-- The controller in virtual time. -/
structure Session where
  controller : Controller
  /-- The linger of a release that cannot ask the policy. -/
  fallback : Span
  /-- The clock in whole milliseconds. -/
  clock : Nat
  /-- The tokens that were cancelled by name. -/
  cancelledTokens : List String
  /-- All calls, each at the place of its number. -/
  waits : Array Wait

namespace Wait

def isPending (w : Wait) : Bool := w.phase = .pending

/-- Has the caller been let in and kept its handle? -/
def isHeld (w : Wait) : Bool :=
  match w.phase with
  | .admitted held _ => held
  | _ => false

/-- The release of an admitted call, if there was one. -/
def release? (w : Wait) : Option Release :=
  match w.phase with
  | .admitted _ release => release
  | _ => none

/-- The instant at which the call cancels itself. -/
def deadlineEnd? (w : Wait) : Option Nat :=
  w.deadline.map (timerEnd (instantOfMillis w.startedAt))

/-- The end of the call's deadline counted in full, if it can be named. -/
def announcedDeadline? (w : Wait) : Option Nat :=
  w.deadline.bind (instantAfter (instantOfMillis w.startedAt))

/-- The end of the linger that the caller is told, if the slot was released and will be freed. -/
def announcedEnd? (w : Wait) : Option Nat :=
  match w.release? with
  | some (.ends announced _) => some announced
  | _ => none

/-- Has the call's own deadline passed? -/
def isOverdue (w : Wait) (now : Nat) : Bool :=
  match w.deadlineEnd? with
  | some instant => instant ≤ now
  | none => false

end Wait

namespace Session

/-- A session before the first call. -/
def new (capacity : Capacity) (linger : Span) : Session :=
  { controller := .new capacity linger, fallback := linger, clock := 0, cancelledTokens := [],
    waits := #[] }

/-- The present instant. -/
def now (s : Session) : Nat := instantOfMillis s.clock

/-- Was the token cancelled by name? -/
def isTokenCancelled (s : Session) (token : String) : Bool := s.cancelledTokens.contains token

/-- Is the call cancelled, by its token's name or by its own deadline? -/
def isCancelled (s : Session) (w : Wait) : Bool :=
  s.isTokenCancelled w.token || w.isOverdue s.now

/-- The numbers of the calls that wait, in ascending order. -/
def pendingIds (s : Session) : List Nat :=
  (List.range s.waits.size).filter fun i => (s.waits[i]?.map Wait.isPending).getD false

/-- The same session with what became of one call changed. -/
def setPhase (s : Session) (id : Nat) (phase : Phase) : Session :=
  { s with waits := s.waits.modify id fun w => { w with phase := phase } }

/-- The same session with another controller state. -/
def withController (s : Session) (c : Controller) : Session := { s with controller := c }

end Session

end Admission
