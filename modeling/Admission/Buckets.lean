import Std.Data.ExtTreeMap
import Std.Data.ExtTreeSet

/-!
# Tickets grouped under a key

The controller asks several questions about the same tickets: who holds this entry, who waits for
it, which is the highest class that waits, how many wait for this reason. Each question has an
index of its own, a map from keys to the identities of the tickets under that key.

Both layers are compared by what they contain. Two indexes with the same tickets under the same
keys are equal, whatever was added and removed on the way, so "the index depends only on the
tickets in it" is an equation and not a relation. For that to hold a key must disappear with its
last ticket, which `Buckets.remove` sees to.
-/

set_option autoImplicit false

namespace Admission

/-- A set of tickets, by identity. -/
abbrev Ids := Std.ExtTreeSet Nat

/-- Tickets grouped under keys. -/
abbrev Buckets (κ : Type) [Ord κ] := Std.ExtTreeMap κ Ids

namespace Buckets

variable {κ : Type} [Ord κ] [Std.TransOrd κ]

/-- The tickets under a key. -/
def ids (b : Buckets κ) (key : κ) : Ids := b[key]?.getD ∅

/-- Files a ticket under a key. -/
def add (b : Buckets κ) (key : κ) (id : Nat) : Buckets κ :=
  b.alter key fun bucket => some ((bucket.getD ∅).insert id)

/-- Takes a ticket from under a key, and the key with its last ticket. -/
def remove (b : Buckets κ) (key : κ) (id : Nat) : Buckets κ :=
  b.alter key fun bucket =>
    match bucket with
    | none => none
    | some ids => if (ids.erase id).isEmpty then none else some (ids.erase id)

/-- The number of tickets under a key. -/
def count (b : Buckets κ) (key : κ) : Nat := (b.ids key).size

/-- The keys in order, each with the number of tickets under it. -/
def counts (b : Buckets κ) : List (κ × Nat) := b.toList.map fun row => (row.1, row.2.size)

/-- The number of tickets under all keys. -/
def total (b : Buckets κ) : Nat := b.counts.foldl (fun n row => n + row.2) 0

/-! ## Is the index complete?

An index over a set of tickets has each of them under exactly one key, and nothing else. The check
walks through the buckets and collects the tickets; it stops at an empty bucket and at a ticket
seen before. -/

/-- Adds tickets to those seen, unless one of them was seen before. -/
def markSeen (seen : Ids) : List Nat → Option Ids
  | [] => some seen
  | id :: rest => if id ∈ seen then none else markSeen (seen.insert id) rest

/-- Adds the tickets of all buckets to those seen, unless a bucket is empty or a ticket was seen
before. -/
def collect (seen : Ids) : List Ids → Option Ids
  | [] => some seen
  | bucket :: rest =>
    if bucket.isEmpty then none
    else
      match markSeen seen bucket.toList with
      | none => none
      | some seen => collect seen rest

/-- Does every member stand under exactly one key, no bucket stand empty, and no other ticket
stand anywhere? -/
def covers (b : Buckets κ) (members : Ids) : Bool :=
  match collect ∅ (b.toList.map (·.2)) with
  | none => false
  | some seen => seen = members

/-! ## What the operations do to a bucket -/

theorem getElem?_add [Std.LawfulEqOrd κ] [DecidableEq κ] (b : Buckets κ) (key k : κ) (id : Nat) :
    (b.add key id)[k]? = if key = k then some ((b.ids key).insert id) else b[k]? := by
  simp only [add, Std.ExtTreeMap.getElem?_alter, Std.LawfulEqCmp.compare_eq_iff_eq, ids]

theorem getElem?_remove [Std.LawfulEqOrd κ] [DecidableEq κ] (b : Buckets κ) (key k : κ) (id : Nat) :
    (b.remove key id)[k]? =
      if key = k then
        (match b[key]? with
          | none => none
          | some ids => if (ids.erase id).isEmpty then none else some (ids.erase id))
      else b[k]? := by
  simp only [remove, Std.ExtTreeMap.getElem?_alter, Std.LawfulEqCmp.compare_eq_iff_eq]

theorem ids_empty (key : κ) : (∅ : Buckets κ).ids key = ∅ := by simp [ids]

end Buckets

end Admission
