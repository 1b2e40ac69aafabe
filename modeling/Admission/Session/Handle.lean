import Admission.Session.Settle

/-!
# Handles and their release

A caller that was let in has a handle. The first release of a handle fixes, once and for all, when
its slot is freed: the present instant plus the linger. All later releases do nothing.

There are three ways to release. `done` asks the policy and keeps the handle; if the policy
fails, nothing has happened and the caller learns of it. Dropping the handle asks the policy as
well, but cannot fail: if the policy does, the fallback linger is taken. Losing the handle in a
failure of the caller does not ask at all.

The slot is freed by whoever sleeps until the linger has ended. Within the scheduler that is one of
its timers. From outside, where there is no scheduler to ask, a thread is started for it; and if the
system refuses the thread, the slot is freed at once.
-/

set_option autoImplicit false

namespace Admission

/-- A failure that a step passes on to its caller. -/
inductive Failure where
  /-- The policy gave no answer. -/
  | policyFailed (f : PolicyFailure)
  /-- The caller itself failed while it held a handle. -/
  | callerFailed
deriving DecidableEq

/-- The message of a failure. -/
def Failure.message : Failure → String
  | policyFailed f => f.message
  | callerFailed => "caller failure"

namespace Session

/-- The call with this number, if its caller holds a handle. -/
def held? (s : Session) (id : Nat) : Option Wait :=
  match s.waits[id]? with
  | some w => if w.isHeld then some w else none
  | none => none

/-- The release that a linger from now on amounts to. -/
def releaseAfter (s : Session) (sleep : Sleep) (linger : Span) : Release :=
  match instantAfter s.now linger with
  | some announced => .ends announced (sleep.endAfter s.now linger)
  | none => .endless

/-- What a release reports. -/
def releaseEvents (s : Session) (t : Ticket) (linger : Span) : List Event :=
  match instantAfter s.now linger with
  | some _ => [.released t linger]
  | none => [.released t linger, .endless t linger]

/-- Releases the handle of a call that was not released before. `held` says whether the caller
keeps the handle. -/
def release (s : Session) (w : Wait) (held : Bool) (sleep : Sleep) (linger : Span) :
    Session × List Event :=
  (s.setPhase w.ticket.id (.admitted held (some (s.releaseAfter sleep linger))),
    s.releaseEvents w.ticket linger)

/-- Releases the handle of a call that was not released before, from outside the scheduler.
`refused` is the error of a system that starts no thread; a linger that never ends needs none. -/
def releaseDetached (s : Session) (w : Wait) (refused : Option String) (linger : Span) :
    Session × List Event :=
  let (s₁, events) := s.release w true .thread linger
  match instantAfter s.now linger, refused with
  | some _, some error =>
    let (s₂, later) := s₁.expire w.ticket
    (s₂, events ++ .threadRefused w.ticket error :: later)
  | _, _ => (s₁, events)

/-- The policy's answer for a call. -/
def askPolicy (s : Session) (w : Wait) : Except PolicyFailure Span :=
  s.controller.policy.ask w.ticket.entry s.controller.numEntries

/-- Releases a handle in some way and keeps it, if it was not released before and the policy gives
an answer. -/
def finishBy (s : Session) (w : Wait) (release : Span → Session × List Event) :
    Session × Option Failure × List Event :=
  match w.release? with
  | some _ => (s, none, [.releasedAgain w.ticket])
  | none =>
    match s.askPolicy w with
    | .error f => (s, some (.policyFailed f), [])
    | .ok linger =>
      let (s', events) := release linger
      (s', none, events)

/-- Releases a handle and keeps it. -/
def finish (s : Session) (w : Wait) : Session × Option Failure × List Event :=
  s.finishBy w (s.release w true .timer)

/-- Releases a handle from outside the scheduler and keeps it. -/
def finishDetached (s : Session) (w : Wait) (refused : Option String) :
    Session × Option Failure × List Event :=
  s.finishBy w (s.releaseDetached w refused)

/-- Drops a handle, and releases it if that has not been done. -/
def drop (s : Session) (w : Wait) : Session × List Event :=
  match w.release? with
  | some release => (s.setPhase w.ticket.id (.admitted false (some release)), [])
  | none =>
    match s.askPolicy w with
    | .error _ =>
      let (s', events) := s.release w false .timer s.fallback
      (s', .droppedHeld w.ticket :: .policyFailed w.ticket :: events)
    | .ok linger =>
      let (s', events) := s.release w false .timer linger
      (s', .droppedHeld w.ticket :: events)

/-- Loses a handle in a failure of its caller. -/
def lose (s : Session) (w : Wait) : Session × List Event :=
  match w.release? with
  | some release => (s.setPhase w.ticket.id (.admitted false (some release)), [])
  | none =>
    let (s', events) := s.release w false .timer s.fallback
    (s', .droppedHeld w.ticket :: events)

end Session

/-! ## What a handle tells its caller -/

/-- The answers of a handle. -/
structure HandleView where
  id : Nat
  entry : Entry
  reason : String
  priority : Priority
  /-- The instant of the call. -/
  created : Nat
  /-- The end of the linger, if the slot was released and will be freed. -/
  expires : Option Nat
  isDone : Bool
deriving DecidableEq

/-- What the handle of a call tells. -/
def Wait.view (w : Wait) : HandleView :=
  { id := w.ticket.id
    entry := w.ticket.entry
    reason := w.ticket.reason
    priority := w.ticket.priority
    created := instantOfMillis w.startedAt
    expires := w.announcedEnd?
    isDone := w.release?.isSome }

/-- The form in which diagnostics show a handle. -/
def HandleView.debug (v : HandleView) : String :=
  "EntryHandle \x7b id: HandleId(" ++ toString v.id ++ "), entry: " ++ v.entry.debug ++
    ", reason: " ++ Text.quote v.reason ++ ", priority: " ++ v.priority.debug ++
    ", done: " ++ (if v.isDone then "true" else "false") ++ " \x7d"

end Admission
