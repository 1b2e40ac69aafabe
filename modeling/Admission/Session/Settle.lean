import Admission.Session.Event

/-!
# Settling

After every step a session settles. First the timers that have run out take effect: lingers that
ended remove their tickets, and deadlines that passed count as cancelled from then on. Then a pass
evaluates every call that waits, in ascending order, each seeing what the ones before it did. If
the pass settled any call, all this is done again, since one call that leaves can make way for
others, also for earlier ones.

Each round but the last settles a call, so there are at most as many rounds as calls that wait,
and one more; `Session.settle` grants exactly that number.
-/

set_option autoImplicit false

namespace Admission.Session

/-- Does something for each of several calls in turn, and collects the events. -/
def forEach (act : Session → Nat → Session × List Event) :
    List Nat → Session → Session × List Event
  | [], s => (s, [])
  | id :: rest, s =>
    let (s₁, events₁) := act s id
    let (s₂, events₂) := forEach act rest s₁
    (s₂, events₁ ++ events₂)

/-! ## Timers -/

/-- Does a call's linger run, and when does it end? It runs from the release until the ticket has
left its entry. -/
def lingerEnd? (s : Session) (w : Wait) : Option Nat :=
  match w.release? with
  | some (.ends _ freed) => if s.controller.holds w.ticket then some freed else none
  | _ => none

/-- Removes a ticket from its entry. -/
def expire (s : Session) (t : Ticket) : Session × List Event :=
  (s.withController (s.controller.apply (.expire t)), [.expired t (s.controller.wouldFree t)])

/-- Removes the ticket of a call from its entry if its linger has ended. -/
def expireIfDue (s : Session) (id : Nat) : Session × List Event :=
  match s.waits[id]? with
  | none => (s, [])
  | some w =>
    match s.lingerEnd? w with
    | none => (s, [])
    | some instant =>
      if instant ≤ s.now then s.expire w.ticket else (s, [])

/-- Removes the tickets of all calls whose lingers have ended. -/
def expireDue (s : Session) : Session × List Event :=
  forEach expireIfDue (List.range s.waits.size) s

/-! ## Evaluation -/

/-- The time since a call was made. -/
def waited (s : Session) (w : Wait) : Span := ⟨s.now - instantOfMillis w.startedAt⟩

/-- Carries out what the controller decided about a call that waits. -/
def conclude (s : Session) (w : Wait) (cancelled : Bool) : Session × List Event :=
  let after := s.withController (s.controller.apply (.evaluate w.ticket cancelled))
  match s.controller.verdict w.ticket cancelled with
  | .granted =>
    (after.setPhase w.ticket.id (.admitted true none),
      [.admitted w.ticket s.clock (s.waited w)])
  | .withdrawn =>
    (after.setPhase w.ticket.id .cancelled, [.cancelled w.ticket s.clock (s.waited w)])
  | .blocked => (after, [])
  | .orphaned => (after, [])

/-- Evaluates a call if it waits. -/
def evaluate (s : Session) (id : Nat) : Session × List Event :=
  match s.waits[id]? with
  | none => (s, [])
  | some w => if w.isPending then s.conclude w (s.isCancelled w) else (s, [])

/-- Evaluates calls one after another. -/
def evaluateAll (s : Session) (ids : List Nat) : Session × List Event := forEach evaluate ids s

/-! ## Rounds -/

/-- At most `fuel` rounds of timers and evaluations, ending after one that settles no call. -/
def settleRounds : Nat → Session → Session × List Event
  | 0, s => (s, [])
  | fuel + 1, s =>
    let (s₁, expired) := s.expireDue
    let (s₂, finished) := s₁.evaluateAll s₁.pendingIds
    if finished.isEmpty then (s₂, expired)
    else
      let (s₃, later) := settleRounds fuel s₂
      (s₃, expired ++ finished ++ later)

/-- Lets everything happen that can happen without the clock. -/
def settle (s : Session) : Session × List Event := settleRounds (s.pendingIds.length + 1) s

end Admission.Session
