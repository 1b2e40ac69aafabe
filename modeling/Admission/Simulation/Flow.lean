import Admission.Ticket

/-!
# The flows of a simulation

Flow number `n` speaks from one local address to one of the remote addresses 10.0.0.0 to
10.255.255.255. With `d` distinct entries, flows whose numbers agree modulo `d` share an entry. The
flows belong to the priority classes in turn.
-/

set_option autoImplicit false

namespace Admission.Simulation

/-- A number of distinct entries that no flow can be assigned to: zero. -/
inductive FlowError where
  | noEntries
deriving DecidableEq, Repr

/-- The message of an error. -/
def FlowError.message : FlowError → String
  | noEntries => "attempt to calculate the remainder with a divisor of zero"

/-- One byte of an address. -/
def octet (n place : Nat) : Nat := n / Nat.pow 256 place % 256

/-- The remote address with a given number. -/
def remoteAddress (n : Nat) : String :=
  "10." ++ toString (octet n 2) ++ "." ++ toString (octet n 1) ++ "." ++ toString (octet n 0) ++
    ":6881"

/-- The entry of a flow among `distinct` ones, of which there is at least one. -/
def flowEntry (flow distinct : Nat) : Entry :=
  ⟨"udp", "127.0.0.1:6881", remoteAddress (flow % distinct)⟩

/-- The entry of a flow, if there is any to choose from. -/
def flowEntry? (flow distinct : Nat) : Except FlowError Entry :=
  if distinct = 0 then .error .noEntries else .ok (flowEntry flow distinct)

/-- The priority of a flow among a number of classes. -/
def flowPriority (flow classes : Nat) : Priority := .ofClass (flow % classes)

/-- The reason that a flow gives. -/
def flowReason (p : Priority) : String := "class-" ++ p.text

end Admission.Simulation
