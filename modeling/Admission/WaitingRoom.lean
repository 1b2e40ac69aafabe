import Admission.Buckets
import Admission.Ticket

/-!
# The waiting room

The tickets that wait for a slot, filed four ways: by priority, to know the highest class that
waits; by reason, for diagnostics; by entry, to count who waits for one; and as one flat set.

The four views change together, in `enter` and `leave` and nowhere else. Both look at the flat set
first, so entering twice and leaving twice do nothing the second time.
-/

set_option autoImplicit false

namespace Admission

/-- The tickets that wait, in four views. -/
structure WaitingRoom where
  byPriority : Buckets Priority
  byReason : Buckets String
  byEntry : Buckets Entry
  members : Ids

namespace WaitingRoom

/-- A room where nobody waits. -/
def empty : WaitingRoom := ⟨∅, ∅, ∅, ∅⟩

/-- Is this ticket waiting? -/
def contains (r : WaitingRoom) (id : Nat) : Bool := r.members.contains id

/-- Lets a ticket in, if it is not inside already. -/
def enter (r : WaitingRoom) (t : Ticket) : WaitingRoom :=
  if r.contains t.id then r
  else
    { byPriority := r.byPriority.add t.priority t.id
      byReason := r.byReason.add t.reason t.id
      byEntry := r.byEntry.add t.entry t.id
      members := r.members.insert t.id }

/-- Lets a ticket out, if it is inside. -/
def leave (r : WaitingRoom) (t : Ticket) : WaitingRoom :=
  if r.contains t.id then
    { byPriority := r.byPriority.remove t.priority t.id
      byReason := r.byReason.remove t.reason t.id
      byEntry := r.byEntry.remove t.entry t.id
      members := r.members.erase t.id }
  else r

/-- Lets a ticket out, and says whether it was inside. -/
def remove (r : WaitingRoom) (t : Ticket) : Bool × WaitingRoom := (r.contains t.id, r.leave t)

/-- The highest priority among the tickets that wait. -/
def topPriority (r : WaitingRoom) : Option Priority := r.byPriority.maxKey?

/-- The number of tickets that wait. -/
def size (r : WaitingRoom) : Nat := r.members.size

/-- The number of tickets that wait for an entry. -/
def waitingFor (r : WaitingRoom) (e : Entry) : Nat := r.byEntry.count e

/-- How many wait for each reason, in the order of the reasons. -/
def reasonCounts (r : WaitingRoom) : List (String × Nat) := r.byReason.counts

/-- Do the three indexes each hold exactly the members of the flat set, every one once? -/
def isConsistent (r : WaitingRoom) : Bool :=
  r.byPriority.covers r.members && r.byReason.covers r.members && r.byEntry.covers r.members

theorem enter_of_contains {r : WaitingRoom} {t : Ticket} (h : r.contains t.id = true) :
    r.enter t = r := if_pos h

theorem leave_of_not_contains {r : WaitingRoom} {t : Ticket} (h : r.contains t.id = false) :
    r.leave t = r := by simp [leave, h]

end WaitingRoom

end Admission
