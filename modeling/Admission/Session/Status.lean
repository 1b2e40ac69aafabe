import Admission.Session.Basic
import Admission.Status

/-!
# The status of a session

The holders are listed entry by entry, in the order of the entries, and under each entry in the
order of the calls.
-/

set_option autoImplicit false

namespace Admission.Session

/-- The time until a release takes effect. A slot that is never freed has the longest time left. -/
def timeLeft (s : Session) : Release → Span
  | .ends announced _ => ⟨announced - s.now⟩
  | .endless => Span.longest

/-- The row of a call that holds its entry. -/
def holderOf (s : Session) (w : Wait) : Holder :=
  { entry := w.ticket.entry
    reason := w.ticket.reason
    expiresIn := w.release?.map s.timeLeft
    age := ⟨s.now - instantOfMillis w.startedAt⟩ }

/-- The numbers of the calls that hold an entry, in the order of the status. -/
def holderIds (s : Session) : List Nat :=
  s.controller.occupancy.toList.flatMap fun bucket => bucket.2.toList

/-- The session at this moment. -/
def status (s : Session) : Status :=
  { numEntries := s.controller.numEntries
    numWaiting := s.controller.waiting.size
    waitingByReason := s.controller.waiting.reasonCounts
    holders := s.holderIds.filterMap fun id => s.waits[id]?.map s.holderOf }

end Admission.Session
