import Admission.Entry
import Admission.Priority

/-!
# Tickets

A ticket is one caller's request for a slot. It names the entry, a reason for diagnostics, and the
caller's priority; its identity is the number of the request, so two tickets on the same entry are
never confused.
-/

set_option autoImplicit false

namespace Admission

/-- One caller's request for a slot of an entry. -/
structure Ticket where
  id : Nat
  entry : Entry
  reason : String
  priority : Priority
deriving DecidableEq

end Admission
