import Admission.Session.Settle

/-!
# Calls

A call is registered and evaluated at once, before its own deadline is looked at: a deadline of no
time cancels a call only if there was no slot for it. As long as it waits, its caller may go away.
-/

set_option autoImplicit false

namespace Admission.Session

/-- A new call, which waits. -/
def newWait (s : Session) (e : Entry) (reason : String) (priority : Priority) (token : String)
    (deadline : Option Span) : Wait :=
  { ticket := ⟨s.waits.size, e, reason, priority⟩
    token := token
    startedAt := s.clock
    deadline := deadline
    phase := .pending }

/-- Registers a call. -/
def register (s : Session) (w : Wait) : Session :=
  { s with
    controller := s.controller.apply (.register w.ticket)
    waits := s.waits.push w }

/-- What a first evaluation reports of a call that has to wait. -/
def blockedEvents (s : Session) (w : Wait) (cancelled : Bool) : List Event :=
  match s.controller.verdict w.ticket cancelled with
  | .blocked => [.blocked w.ticket]
  | _ => []

/-- Registers a call and evaluates it for the first time. -/
def start (s : Session) (w : Wait) : Session × List Event :=
  let cancelled := s.isTokenCancelled w.token
  let registered := s.register w
  let (s', events) := registered.conclude w cancelled
  (s', registered.blockedEvents w cancelled ++ events)

/-- Gives up a call that waits. -/
def abandon (s : Session) (w : Wait) : Session × List Event :=
  ((s.withController (s.controller.apply (.abandon w.ticket))).setPhase w.ticket.id .abandoned,
    [.abandoned w.ticket])

/-- The call with this number, if it waits. -/
def pending? (s : Session) (id : Nat) : Option Wait :=
  match s.waits[id]? with
  | some w => if w.isPending then some w else none
  | none => none

end Admission.Session
