import Admission.Proofs.Ceiling
import Admission.Proofs.Ledger
import Mathlib.Algebra.Order.BigOperators.Group.List
import Mathlib.Algebra.Order.Ring.Nat

/-!
# A way in for everybody who waits

With one slot at least nobody waits in vain: whatever the state, there is an order of turns in which
holders expire and waiting tickets are evaluated, none of them cancelled, and at whose end the
ticket holds its entry (`Ledger.Sound.wayIn`).

The way is found by letting go of one holder after another until the entries are free, and then of
the highest class of those who wait, one by one, until the ticket itself belongs to it. Each of
these turns brings one ticket nearer to its end, so the turns come to an end too; `Ledger.load`
counts them down.
-/

set_option autoImplicit false

namespace Admission

/-- Does the transaction only take its turn: an expiry, or the evaluation of a ticket that is not
cancelled? Nobody comes in, goes away or is cancelled, and the capacity stays. -/
def Transaction.IsTurn : Transaction → Prop
  | .evaluate _ cancelled => cancelled = false
  | .expire _ => True
  | _ => False

/-- How many turns a ticket has before it. -/
def Place.weight : Place → Nat
  | .waiting => 2
  | .holding => 1
  | .nowhere => 0

namespace Ledger

variable {l : Ledger}

/-- How many turns all tickets have before them. -/
def load (l : Ledger) : Nat := (l.tickets.map fun t => (l.place t).weight).sum

/-- There is an order of turns that ends with the ticket on its entry. -/
def WayIn (l : Ledger) (t : Ticket) : Prop :=
  ∃ txs, (∀ tx ∈ txs, tx.IsTurn) ∧ l.AllowsAll txs ∧ (l.applyAll txs).place t = .holding

theorem WayIn.cons (tx : Transaction) {t : Ticket} (hturn : tx.IsTurn) (hallow : l.Allows tx)
    (h : (l.apply tx).WayIn t) : l.WayIn t := by
  obtain ⟨txs, htxs, hrest, hin⟩ := h
  refine ⟨tx :: txs, ?_, ⟨hallow, hrest⟩, hin⟩
  intro u hu
  rcases List.mem_cons.mp hu with rfl | hu
  · exact hturn
  · exact htxs u hu

/-! ## Counting down -/

theorem place_apply_of_moves {tx : Transaction} {u : Ticket} {p : Place}
    (hmove : l.move? tx = some (u, p)) : (l.apply tx).place = Function.update l.place u p := by
  simp only [apply, hmove, moved]

theorem load_apply_lt {tx : Transaction} {u : Ticket} {p : Place} (hu : u ∈ l.tickets)
    (htickets : l.ticketsAfter tx = l.tickets) (hmove : l.move? tx = some (u, p))
    (hp : p.weight < (l.place u).weight) : (l.apply tx).load < l.load := by
  unfold load
  rw [place_apply_of_moves hmove, show (l.apply tx).tickets = l.tickets from htickets]
  refine List.sum_lt_sum _ _ ?_ ⟨u, hu, by rwa [Function.update_self]⟩
  intro t _
  by_cases htu : t = u
  · rw [htu, Function.update_self]
    exact hp.le
  · rw [Function.update_of_ne htu]

namespace Sound

theorem exists_holder (h : l.Sound) (hn : 0 < l.controller.numEntries) :
    ∃ u, l.place u = .holding := by
  by_contra hnone
  have hempty : l.controller.occupancy = ∅ := by
    refine Std.ExtTreeMap.eq_empty_iff_forall_not_mem.mpr fun e he => ?_
    obtain ⟨u, hu, -⟩ := (h.holding.mem_iff e).mp he
    exact hnone ⟨u, hu⟩
  rw [Controller.numEntries, hempty, Std.ExtTreeMap.size_empty] at hn
  exact Nat.lt_irrefl 0 hn

theorem exists_granted (h : l.Sound) (hroom : l.controller.hasRoom = true) {t : Ticket}
    (ht : l.place t = .waiting) (cancelled : Bool) :
    ∃ u, l.place u = .waiting ∧ l.controller.verdict u cancelled = .granted := by
  obtain ⟨top, htop⟩ := h.waiting.exists_topPriority ht
  obtain ⟨⟨u, hu, rfl⟩, -⟩ := (h.waiting.topPriority_eq_some_iff _).mp htop
  exact ⟨u, hu, Controller.verdict_eq_granted_iff.mpr (Or.inr ⟨hroom, htop⟩)⟩

/-- **There is a way in** for everybody who waits, if there is a slot at all. -/
theorem wayIn (h : l.Sound) {m : UInt64} (hcap : l.controller.capacity = .limited m)
    (hm : 0 < m.toNat) {t : Ticket} (ht : l.place t = .waiting) : l.WayIn t := by
  induction hload : l.load using Nat.strong_induction_on generalizing l with
  | _ n ih =>
    subst hload
    by_cases hnow : l.controller.verdict t false = .granted
    · refine ⟨[.evaluate t false], ?_, ⟨ht, trivial⟩, ?_⟩
      · simp [Transaction.IsTurn]
      · have hmove : l.move? (.evaluate t false) = some (t, .holding) := by simp only [move?, hnow]
        exact (congrFun (place_apply_of_moves hmove) t).trans (Function.update_self t _ _)
    · -- It is not the ticket's turn. Somebody else's brings the load down.
      rcases Nat.eq_zero_or_pos l.controller.numEntries with hempty | hoccupied
      · -- Nobody holds an entry, so somebody who waits can take his turn.
        have hroom : l.controller.hasRoom = true := by
          simp [Controller.hasRoom, hcap, Capacity.hasRoom, hempty, hm]
        obtain ⟨u, hu, hgranted⟩ := h.exists_granted hroom ht false
        have hut : t ≠ u := fun heq => hnow (heq ▸ hgranted)
        have hmove : l.move? (.evaluate u false) = some (u, .holding) := by
          simp only [move?, hgranted]
        refine .cons (.evaluate u false) rfl hu ?_
        have hmem : u ∈ l.tickets := h.known u (by simp [hu])
        have hless := load_apply_lt hmem rfl hmove (by simp [hu, Place.weight])
        refine ih _ hless (h.evaluate hu false) ?_ ?_ rfl
        · exact (Controller.capacity_apply_evaluate _ u false).trans hcap
        · rw [place_apply_of_moves hmove, Function.update_of_ne hut]
          exact ht
      · obtain ⟨u, hu⟩ := h.exists_holder hoccupied
        have hmem : u ∈ l.tickets := h.known u (by simp [hu])
        have hut : t ≠ u := by
          rintro rfl
          rw [ht] at hu
          cases hu
        have hmove : l.move? (.expire u) = some (u, .nowhere) := if_pos hu
        refine .cons (.expire u) trivial hmem ?_
        have hless := load_apply_lt hmem rfl hmove (by simp [hu, Place.weight])
        refine ih _ hless (h.expire hmem) hcap ?_ rfl
        rw [place_apply_of_moves hmove, Function.update_of_ne hut]
        exact ht

end Sound

/-! ## Removing an entry

An entry is gone when the last of its holders is. Their expiries leave everybody who waits where he
was, so that the way in is open after them as it was before. -/

/-- The transactions let the holders of an entry go until nobody holds it. -/
structure Removal (l : Ledger) (e : Entry) (txs : List Transaction) : Prop where
  expires : ∀ tx ∈ txs, ∃ u, tx = .expire u ∧ u.entry = e
  allowed : l.AllowsAll txs
  frees : (l.applyAll txs).controller.isOccupied e = false

theorem Sound.isOccupied_iff (h : l.Sound) (e : Entry) :
    l.controller.isOccupied e = true ↔ ∃ u, l.place u = .holding ∧ u.entry = e := by
  rw [Controller.isOccupied, Std.ExtTreeMap.contains_iff_mem]
  exact h.holding.mem_iff e

theorem Sound.exists_removal (h : l.Sound) (e : Entry) : ∃ txs, l.Removal e txs := by
  induction hload : l.load using Nat.strong_induction_on generalizing l with
  | _ n ih =>
    subst hload
    cases hocc : l.controller.isOccupied e with
    | false => exact ⟨[], by simp, trivial, hocc⟩
    | true =>
      -- One of the holders goes; the others are fewer.
      obtain ⟨u, hu, rfl⟩ := (h.isOccupied_iff e).mp hocc
      have hmem : u ∈ l.tickets := h.known u (by simp [hu])
      have hmove : l.move? (.expire u) = some (u, .nowhere) := if_pos hu
      obtain ⟨txs, hexpires, hallow, hfrees⟩ :=
        ih _ (load_apply_lt hmem rfl hmove (by simp [hu, Place.weight])) (h.expire hmem) rfl
      refine ⟨.expire u :: txs, ?_, ⟨hmem, hallow⟩, hfrees⟩
      intro tx htx
      rcases List.mem_cons.mp htx with rfl | htx
      · exact ⟨u, rfl, rfl⟩
      · exact hexpires tx htx

namespace Removal

variable {e : Entry} {txs : List Transaction}

theorem tail {tx : Transaction} {rest : List Transaction} (h : l.Removal e (tx :: rest)) :
    (∃ u, tx = .expire u ∧ u.entry = e) ∧ (l.apply tx).Removal e rest :=
  ⟨h.expires tx List.mem_cons_self,
    ⟨fun u hu => h.expires u (List.mem_cons_of_mem tx hu), h.allowed.2, h.frees⟩⟩

theorem capacity_eq (h : l.Removal e txs) :
    (l.applyAll txs).controller.capacity = l.controller.capacity := by
  induction txs generalizing l with
  | nil => rfl
  | cons tx rest ih =>
    obtain ⟨⟨u, rfl, -⟩, hrest⟩ := h.tail
    exact ih hrest

theorem place_eq_waiting (h : l.Removal e txs) {t : Ticket} (ht : l.place t = .waiting) :
    (l.applyAll txs).place t = .waiting := by
  induction txs generalizing l with
  | nil => exact ht
  | cons tx rest ih =>
    obtain ⟨⟨u, rfl, -⟩, hrest⟩ := h.tail
    refine ih hrest ((place_apply_eq_waiting_iff l _ t).mpr (Or.inr ⟨ht, ?_⟩))
    rintro (⟨r, hr, -⟩ | habandon)
    · cases hr
    · cases habandon

theorem numEntries_le (h : l.Removal e txs) :
    (l.applyAll txs).controller.numEntries ≤ l.controller.numEntries := by
  induction txs generalizing l with
  | nil => exact le_rfl
  | cons tx rest ih =>
    obtain ⟨⟨u, rfl, -⟩, hrest⟩ := h.tail
    exact (ih hrest).trans (l.controller.numEntries_expire_le u)

theorem numEntries_lt (h : l.Removal e txs) (hocc : l.controller.isOccupied e = true) :
    (l.applyAll txs).controller.numEntries < l.controller.numEntries := by
  induction txs generalizing l with
  | nil =>
    have hfree : l.controller.isOccupied e = false := h.frees
    rw [hocc] at hfree
    cases hfree
  | cons tx rest ih =>
    obtain ⟨⟨u, rfl, rfl⟩, hrest⟩ := h.tail
    cases hstill : (l.apply (.expire u)).controller.isOccupied u.entry with
    | true => exact (ih hrest hstill).trans_le (l.controller.numEntries_expire_le u)
    | false => exact hrest.numEntries_le.trans_lt (Controller.numEntries_expire_lt hocc hstill)

/-- After the removal of an entry there is still a way in for everybody who waits. -/
theorem wayIn (h : l.Removal e txs) (hl : l.Sound) {m : UInt64}
    (hcap : l.controller.capacity = .limited m) (hm : 0 < m.toNat) {t : Ticket}
    (ht : l.place t = .waiting) : (l.applyAll txs).WayIn t :=
  (hl.applyAll h.allowed).wayIn (h.capacity_eq.trans hcap) hm (h.place_eq_waiting ht)

end Removal

end Ledger

end Admission
