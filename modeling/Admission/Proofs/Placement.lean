import Admission.Proofs.Ledger

/-!
# Every ticket in one place

Five collections know about tickets: the holders of the entries, and the four views of the waiting
room. This file says what they agree on, in the terms of the account that the ledger keeps:

> a ticket that waits stands in the room, there under its own priority, reason and entry, and with
> no entry's holders; a ticket that was let in stands with the holders of its own entry and nowhere
> else; all others stand nowhere.

With that go the facts that make the counts right: no number stands for two tickets, no number
stands anywhere that was not handed out, and no bucket is empty.
-/

set_option autoImplicit false

namespace Admission

/-- The five collections know a ticket exactly at its place, and there under its own fields. -/
structure Controller.Locates (c : Controller) (t : Ticket) (p : Place) : Prop where
  members : t.id ∈ c.waiting.members ↔ p = .waiting
  byPriority : ∀ k, t.id ∈ c.waiting.byPriority.ids k ↔ p = .waiting ∧ k = t.priority
  byReason : ∀ k, t.id ∈ c.waiting.byReason.ids k ↔ p = .waiting ∧ k = t.reason
  byEntry : ∀ k, t.id ∈ c.waiting.byEntry.ids k ↔ p = .waiting ∧ k = t.entry
  occupancy : ∀ e, t.id ∈ c.occupancy.ids e ↔ p = .holding ∧ e = t.entry

/-- Does the number stand in one of the five collections? -/
def Controller.Mentions (c : Controller) (i : Nat) : Prop :=
  i ∈ c.waiting.members ∨ (∃ k, i ∈ c.waiting.byPriority.ids k) ∨
    (∃ k, i ∈ c.waiting.byReason.ids k) ∨ (∃ k, i ∈ c.waiting.byEntry.ids k) ∨
    ∃ e, i ∈ c.occupancy.ids e

namespace Ledger

/-- Every ticket is in one place, and stays there as long as it should. -/
structure WellPlaced (l : Ledger) : Prop where
  /-- No number was handed out twice. -/
  ids_nodup : (l.tickets.map Ticket.id).Nodup
  /-- The collections have each ticket at its place, once. -/
  located : ∀ t ∈ l.tickets, l.controller.Locates t (l.place t)
  /-- The collections have nothing but tickets that were handed out. -/
  no_strangers : ∀ i, l.controller.Mentions i → i ∈ l.tickets.map Ticket.id
  occupancy_pruned : l.controller.occupancy.Pruned
  byPriority_pruned : l.controller.waiting.byPriority.Pruned
  byReason_pruned : l.controller.waiting.byReason.Pruned
  byEntry_pruned : l.controller.waiting.byEntry.Pruned
  /-- A ticket waits from its registration until it is let in, withdrawn or abandoned. -/
  waits_until : ∀ tx, l.Allows tx → ∀ t,
    (l.apply tx).place t = .waiting ↔
      tx = .register t ∨ (l.place t = .waiting ∧ ¬ l.EndsWait tx t)
  /-- A ticket holds its entry from when it is let in until it expires. -/
  holds_until : ∀ tx, l.Allows tx → ∀ t,
    (l.apply tx).place t = .holding ↔ l.LetsIn tx t ∨ (l.place t = .holding ∧ tx ≠ .expire t)

namespace Sound

variable {l : Ledger}

theorem locates (h : l.Sound) {t : Ticket} (ht : t ∈ l.tickets) :
    l.controller.Locates t (l.place t) := by
  have hwait := h.eq_of_place ht (p := .waiting) (by decide)
  have hhold := h.eq_of_place ht (p := .holding) (by decide)
  refine ⟨?_, h.waiting.byPriority.id_mem_ids_iff hwait, h.waiting.byReason.id_mem_ids_iff hwait,
    h.waiting.byEntry.id_mem_ids_iff hwait, h.holding.id_mem_ids_iff hhold⟩
  rw [← Std.ExtTreeSet.contains_iff_mem]
  exact h.waiting.contains_iff hwait

theorem mem_ids_of_mem (h : l.Sound) {p : Place} (hp : p ≠ .nowhere) {i : Nat}
    (hi : ∃ t ∈ {t | l.place t = p}, t.id = i) : i ∈ l.tickets.map Ticket.id := by
  obtain ⟨t, ht, rfl⟩ := hi
  refine List.mem_map_of_mem (h.known t ?_)
  rw [ht]
  exact hp

theorem mem_ids_of_indexed (h : l.Sound) {κ : Type} [Ord κ] [Std.TransOrd κ] {b : Buckets κ}
    {key : Ticket → κ} {p : Place} (hp : p ≠ .nowhere) (hb : b.Indexes key {t | l.place t = p})
    {k : κ} {i : Nat} (hi : i ∈ b.ids k) : i ∈ l.tickets.map Ticket.id := by
  obtain ⟨t, ht, -, hid⟩ := (hb.mem_ids_iff k i).mp hi
  exact h.mem_ids_of_mem hp ⟨t, ht, hid⟩

theorem mem_ids_of_mentions (h : l.Sound) {i : Nat} (hi : l.controller.Mentions i) :
    i ∈ l.tickets.map Ticket.id := by
  rcases hi with hi | ⟨k, hi⟩ | ⟨k, hi⟩ | ⟨k, hi⟩ | ⟨e, hi⟩
  · exact h.mem_ids_of_mem (by decide) ((h.waiting.mem_members_iff i).mp hi)
  · exact h.mem_ids_of_indexed (by decide) h.waiting.byPriority hi
  · exact h.mem_ids_of_indexed (by decide) h.waiting.byReason hi
  · exact h.mem_ids_of_indexed (by decide) h.waiting.byEntry hi
  · exact h.mem_ids_of_indexed (by decide) h.holding hi

end Sound

/-- **Every ticket in one place.** After every interleaving of transactions the five collections
agree with the account, and the account moves a ticket only when its wait or its hold ends. -/
theorem wellPlaced_of_interleaving (capacity : Capacity) (linger : Span) (txs : List Transaction)
    (h : (new capacity linger).AllowsAll txs) :
    ((new capacity linger).applyAll txs).WellPlaced := by
  have hs := (Sound.new capacity linger).applyAll h
  exact
    { ids_nodup := hs.nodup
      located := fun t ht => hs.locates ht
      no_strangers := fun i hi => hs.mem_ids_of_mentions hi
      occupancy_pruned := hs.holding.pruned
      byPriority_pruned := hs.waiting.byPriority.pruned
      byReason_pruned := hs.waiting.byReason.pruned
      byEntry_pruned := hs.waiting.byEntry.pruned
      waits_until := fun tx _ t => place_apply_eq_waiting_iff _ tx t
      holds_until := fun tx hallow t => hs.place_apply_eq_holding_iff hallow t }

/-- One slot, three callers: one who waits, one who shares although it was cancelled, and one whose
linger has run out. -/
theorem wellPlaced_of_interleaving_one_slot :
    let a : Ticket := ⟨7, ⟨"udp", "", "a"⟩, "x", .standard⟩
    let b : Ticket := ⟨3, ⟨"udp", "", "b"⟩, "y", .standard⟩
    let c : Ticket := ⟨5, ⟨"udp", "", "a"⟩, "x", .standard⟩
    let txs := [.register a, .register b, .evaluate a false, .register c, .evaluate b false,
      .evaluate c true, .expire a]
    let l := (new (.limited 1) .zero).applyAll txs
    (new (.limited 1) .zero).AllowsAll txs ∧
      [a, b, c].map l.place = [.nowhere, .waiting, .holding] ∧ l.WellPlaced := by
  intro a b c txs l
  have hallow : (new (.limited 1) .zero).AllowsAll txs := by decide_cbv
  exact ⟨hallow, by decide_cbv, wellPlaced_of_interleaving _ _ txs hallow⟩

end Ledger

end Admission
