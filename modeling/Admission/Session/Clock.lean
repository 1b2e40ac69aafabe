import Admission.Session.Settle

/-!
# The clock

The clock moves from one end to the next: at each, the session settles before time goes on. The
ends are those of all deadlines that were ever set, and those of the lingers of tickets that have
not left their entries. They are counted in full: a timer that was cut to the longest time that a
timer runs makes no stop where it was cut, but takes effect where the clock stops next.

An end between two whole milliseconds is seen at the second of them. Settling sets no new end, so a
move of the clock makes at most one stop for each end that there is when it begins.
-/

set_option autoImplicit false

namespace Admission.Session

/-- The end of the timer of a call that runs, if there is one: the deadline of a call that waits,
or the linger of one that was released. -/
def timer? (s : Session) (w : Wait) : Option Nat :=
  if w.isPending then w.deadlineEnd? else s.lingerEnd? w

/-- The ends of all timers that run. -/
def timers (s : Session) : List Nat := s.waits.toList.filterMap s.timer?

/-- The end of a call's linger counted in full, until its ticket leaves its entry. -/
def lingerStop? (s : Session) (w : Wait) : Option Nat :=
  if s.controller.holds w.ticket then w.announcedEnd? else none

/-- The ends at which the clock stops. -/
def ends (s : Session) : List Nat :=
  s.waits.toList.flatMap fun w => w.announcedDeadline?.toList ++ (s.lingerStop? w).toList

/-- The first whole millisecond that is not before an instant. -/
def millisOf (instant : Nat) : Nat := (Span.mk instant).millisCeil

/-- The clock at the next end in the future. -/
def nextStop? (s : Session) : Option Nat :=
  ((s.ends.filter fun instant => s.now < instant).map millisOf).min?

/-- Moves the clock to `target`, stopping at most `fuel` times on the way. -/
def advanceStops : Nat → Nat → Session → Session × List Event
  | 0, target, s => ({ s with clock := target }, [])
  | fuel + 1, target, s =>
    let (s₁, events) := s.settle
    match s₁.nextStop? with
    | none => ({ s₁ with clock := target }, events)
    | some stop =>
      if stop ≤ target then
        let (s₂, later) := advanceStops fuel target { s₁ with clock := stop }
        (s₂, events ++ later)
      else ({ s₁ with clock := target }, events)

/-- Moves the clock forward by some milliseconds. -/
def advance (s : Session) (ms : Nat) : Session × List Event :=
  advanceStops (s.ends.length + 1) (s.clock + ms) s

end Admission.Session
