import Admission.Entry
import Admission.Span

/-!
# How long a released entry lingers

A released slot is not free at once: late packets of a connection may still arrive. How long it
lingers is the caller's policy. A policy looks at the protocol of the entry and, if it wishes, at
how full the table is; and it may fail to answer, because it refuses or because the linger would be
too long for a span, which the controller must survive.
-/

set_option autoImplicit false

namespace Admission

/-- A rule for the linger of a released entry. -/
structure Policy where
  /-- The linger of protocols without one of their own. -/
  linger : Span
  /-- The protocols that have a linger of their own. -/
  byProtocol : List (String × Span)
  /-- The protocols on which the policy refuses to answer. -/
  refuses : List String
  /-- Is the linger multiplied by the number of occupied entries? -/
  perOccupied : Bool
deriving DecidableEq

/-- Why a policy gives no answer. -/
inductive PolicyFailure where
  /-- The policy refuses to answer for an entry. -/
  | refused (e : Entry)
  /-- The linger is longer than the longest span. -/
  | tooLong
deriving DecidableEq

/-- The message of a failure. -/
def PolicyFailure.message : PolicyFailure → String
  | refused e => "policy refused " ++ e.text
  | tooLong => "overflow when multiplying duration by scalar"

namespace Policy

/-- The policy that always gives the same answer. -/
def constant (linger : Span) : Policy := ⟨linger, [], [], false⟩

/-- The linger of a protocol, before the table is looked at. -/
def base (p : Policy) (protocol : String) : Span :=
  (p.byProtocol.lookup protocol).getD p.linger

/-- The linger for an entry while `occupied` entries are in use. -/
def ask (p : Policy) (e : Entry) (occupied : Nat) : Except PolicyFailure Span :=
  if p.refuses.contains e.protocol then .error (.refused e)
  else if p.perOccupied then
    match (p.base e.protocol).times? occupied with
    | some linger => .ok linger
    | none => .error .tooLong
  else .ok (p.base e.protocol)

theorem ask_constant (linger : Span) (e : Entry) (n : Nat) :
    (constant linger).ask e n = .ok linger := rfl

end Policy

end Admission
