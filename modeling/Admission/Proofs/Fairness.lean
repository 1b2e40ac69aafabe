import Admission.Proofs.Replay

/-!
# Free slots go by priority

A free slot goes to the highest class that waits. A single decision says little about a whole pass
over the waiting tickets, in which slots are taken and freed, tickets share entries, and tickets of
the highest class turn out to be cancelled. This file is about such stretches:

> as long as nobody comes in from outside, the tickets that take a free slot come in the order of
> their priorities, the highest first.

The reason is that in such a stretch nobody begins to wait. Who takes a slot later was waiting when
an earlier ticket took one, and was not above it then. Tickets that share an entry take no slot, and
nothing is said about them.
-/

set_option autoImplicit false

namespace Admission

/-- The tickets that were let in onto entries nobody held came in the order of their priorities. -/
def OpensByPriority (rulings : List Ruling) : Prop :=
  (rulings.filter Ruling.opens).Pairwise fun a b => b.ticket.priority ≤ a.ticket.priority

namespace Ledger

variable {l : Ledger}

/-! ## One ruling

The rule reads the top of the priority index, and the index is as good as the account:
`Ledger.Sound` says that it files those who wait and nobody else. -/

/-- Whoever waits is not above the ticket that takes a free slot. -/
theorem Sound.priority_le_of_opens (h : l.Sound) {tx : Transaction} {r : Ruling}
    (hr : l.controller.ruling? tx = some r) (hopens : r.opens = true) {u : Ticket}
    (hu : l.place u = .waiting) : u.priority ≤ r.ticket.priority := by
  obtain ⟨cancelled, rfl, hv, -, hshared⟩ := Controller.ruling?_eq_some_iff.mp hr
  simp only [Ruling.opens, Bool.and_eq_true, decide_eq_true_eq, Bool.not_eq_true'] at hopens
  obtain ⟨hgranted, hfree⟩ := hopens
  rw [hgranted, Controller.verdict_eq_granted_iff] at hv
  rcases hv with hocc | ⟨-, htop⟩
  · rw [hshared, hfree] at hocc
    cases hocc
  · exact ((h.waiting.topPriority_eq_some_iff _).mp htop).2 u hu

theorem Sound.letsIn_of_places (h : l.Sound) {tx : Transaction} (hallow : l.Allows tx) {t : Ticket}
    (hbefore : l.place t = .waiting) (hafter : (l.apply tx).place t = .holding) :
    l.LetsIn tx t := by
  rcases (h.place_apply_eq_holding_iff hallow t).mp hafter with hin | ⟨hheld, -⟩
  · exact hin
  · rw [hbefore] at hheld
    cases hheld

/-! ## A stretch in which nobody is registered

Then the set of those who wait can only become smaller, so whoever is let in at the end of the
stretch was waiting all the time. -/

theorem waiting_of_waiting_apply {tx : Transaction} (htx : tx.RegistersNobody) {t : Ticket}
    (h : (l.apply tx).place t = .waiting) : l.place t = .waiting := by
  rcases (place_apply_eq_waiting_iff l tx t).mp h with hreg | ⟨hwait, -⟩
  · exact absurd hreg (htx t)
  · exact hwait

theorem waiting_of_ruling? {tx : Transaction} (hallow : l.Allows tx) {r : Ruling}
    (hr : l.controller.ruling? tx = some r) : l.place r.ticket = .waiting := by
  obtain ⟨cancelled, rfl, -⟩ := Controller.ruling?_eq_some_iff.mp hr
  exact hallow

/-- All who are ruled on in the stretch have waited since its beginning. -/
theorem waiting_of_mem_rulings {txs : List Transaction} (hallow : l.AllowsAll txs)
    (htxs : ∀ tx ∈ txs, tx.RegistersNobody) {r : Ruling} (hr : r ∈ l.controller.rulings txs) :
    l.place r.ticket = .waiting := by
  induction txs generalizing l with
  | nil => cases hr
  | cons tx rest ih =>
    rcases List.mem_append.mp hr with hhead | htail
    · exact waiting_of_ruling? hallow.1 (Option.mem_toList.mp hhead)
    · have hlater := ih hallow.2 (fun u hu => htxs u (List.mem_cons_of_mem tx hu)) htail
      exact waiting_of_waiting_apply (htxs tx List.mem_cons_self) hlater

/-- **Free slots go by priority** as long as nobody is registered. -/
theorem Sound.opensByPriority (h : l.Sound) {txs : List Transaction} (hallow : l.AllowsAll txs)
    (htxs : ∀ tx ∈ txs, tx.RegistersNobody) : OpensByPriority (l.controller.rulings txs) := by
  induction txs generalizing l with
  | nil => exact List.Pairwise.nil
  | cons tx rest ih =>
    have hhead := htxs tx List.mem_cons_self
    have hrest : ∀ u ∈ rest, u.RegistersNobody := fun u hu => htxs u (List.mem_cons_of_mem tx hu)
    have htail := ih (h.apply hallow.1) hallow.2 hrest
    unfold OpensByPriority at htail ⊢
    rw [Controller.rulings, List.filter_append, List.pairwise_append]
    refine ⟨?_, htail, ?_⟩
    · cases l.controller.ruling? tx with
      | none => exact List.Pairwise.nil
      | some r => exact (List.pairwise_singleton _ r).filter _
    · -- The ruling `a` is made now and `b` later; so the ticket of `b` waits now.
      intro a ha b hb
      rw [List.mem_filter, Option.mem_toList] at ha
      have hwait := waiting_of_mem_rulings hallow.2 hrest (List.mem_filter.mp hb).1
      exact h.priority_le_of_opens ha.1 ha.2 (waiting_of_waiting_apply hhead hwait)

end Ledger

/-! ## Sessions -/

/-- The session goes from `s` to `s'` without a new ticket, by the transactions that the events tell
of, and free slots go by priority on the way. -/
def Session.SettlesByPriority (s s' : Session) (events : List Event) : Prop :=
  ∃ (l : Ledger) (txs : List Transaction), l.Accounts s ∧ (∀ tx ∈ txs, tx.RegistersNobody) ∧
    l.AllowsAll txs ∧ (l.applyAll txs).Accounts s' ∧
    events.filterMap Event.effect? = l.controller.effects txs ∧
    OpensByPriority (l.controller.rulings txs)

theorem Session.Replays.settlesByPriority {s s' : Session} {events : List Event}
    (h : s.Replays Transaction.RegistersNobody s' events) (hs : s.Orderly) :
    s.SettlesByPriority s' events := by
  obtain ⟨l, hl⟩ := hs
  obtain ⟨txs, htxs, hallow, hacc, heffects⟩ := h l hl
  exact ⟨l, txs, hl, htxs, hallow, hacc, heffects, hl.sound.opensByPriority hallow htxs⟩

theorem Session.replays_run_of_no_call (s : Session) {steps : List Step}
    (h : ∀ what ∈ steps, ¬ what.IsCall) :
    s.Replays Transaction.RegistersNobody (s.run steps).1
      ((s.run steps).2.flatMap Answer.events) := by
  refine (s.replays_run steps).mono ?_
  rintro tx (⟨what, hwhat, hcall⟩ | htx)
  · exact absurd hcall (h what hwhat)
  · exact htx

/-- **Strict priority.** Under every interleaving of transactions, a ticket that gets from the room
onto an entry that nobody held is at least as high as everybody who waits then; and as long as
nobody is registered, the tickets that get onto such entries do so in the order of their priorities.
In every run of a session, all steps without a call, however many, are such a stretch, and so is the
settling of every single step. -/
theorem free_slots_go_by_priority (capacity : Capacity) (linger : Span) :
    (∀ txs, (Ledger.new capacity linger).AllowsAll txs →
      let l := (Ledger.new capacity linger).applyAll txs
      (∀ tx t, l.Allows tx → l.place t = .waiting → (l.apply tx).place t = .holding →
        l.controller.isOccupied t.entry = false →
        ∀ u, l.place u = .waiting → u.priority ≤ t.priority) ∧
      ∀ stretch, l.AllowsAll stretch → (∀ tx ∈ stretch, tx.RegistersNobody) →
        OpensByPriority (l.controller.rulings stretch)) ∧
    ∀ steps,
      let s := ((Session.new capacity linger).run steps).1
      (∀ rest, (∀ what ∈ rest, ¬ what.IsCall) →
        s.SettlesByPriority (s.run rest).1 ((s.run rest).2.flatMap Answer.events)) ∧
      ∀ what,
        let performed := (s.perform what).1
        performed.SettlesByPriority performed.settle.1 performed.settle.2 := by
  refine ⟨fun txs hallow => ?_, fun steps => ?_⟩
  · have hsound := (Ledger.Sound.new capacity linger).applyAll hallow
    refine ⟨?_, fun stretch hstretch hquiet => hsound.opensByPriority hstretch hquiet⟩
    intro tx t htx hbefore hafter hfree u hu
    obtain ⟨r, hr, rfl, hgranted⟩ := hsound.letsIn_of_places htx hbefore hafter
    obtain ⟨-, -, -, -, hshared⟩ := Controller.ruling?_eq_some_iff.mp hr
    refine hsound.priority_le_of_opens hr ?_ hu
    simp [Ruling.opens, hgranted, ← hshared, hfree]
  · have horderly := (Session.orderly_new capacity linger).run steps
    refine ⟨fun rest hrest => ?_, fun what => ?_⟩
    · exact (Session.replays_run_of_no_call _ hrest).settlesByPriority horderly
    · have hperformed := (Session.replays_perform _ what).orderly horderly
      exact (Session.replays_settle _).settlesByPriority hperformed

/-- One slot, then two, and two callers who wait: the one of the higher class is let in first,
although the other one came before and is looked at before. -/
theorem free_slots_go_by_priority_two_classes :
    let high : Priority := ⟨1, by decide, by decide⟩
    let a : Ticket := ⟨0, ⟨"udp", "", "a"⟩, "x", .standard⟩
    let b : Ticket := ⟨1, ⟨"udp", "", "b"⟩, "x", .standard⟩
    let d : Ticket := ⟨2, ⟨"udp", "", "d"⟩, "x", high⟩
    let txs := [.register a, .evaluate a false, .register b, .register d, .evaluate b false,
      .setCapacity (.limited 2)]
    let l := (Ledger.new (.limited 1) .zero).applyAll txs
    let stretch := [.evaluate b false, .evaluate d false, .expire a, .evaluate b false]
    let steps := [.wait a.entry "x" .standard "k" none, .wait b.entry "x" .standard "k" none,
      .wait d.entry "x" high "k" none]
    let rest := [.drop 0, .setCapacity .unlimited, .advance 1]
    let s := ((Session.new (.limited 1) .zero).run steps).1
    (Ledger.new (.limited 1) .zero).AllowsAll txs ∧ l.AllowsAll stretch ∧ l.place b = .waiting ∧
      b.priority ≤ d.priority ∧
      ((l.controller.rulings stretch).filter Ruling.opens).map Ruling.ticket = [d, b] ∧
      OpensByPriority (l.controller.rulings stretch) ∧
      s.SettlesByPriority (s.run rest).1 ((s.run rest).2.flatMap Answer.events) := by
  intro high a b d txs l stretch steps rest s
  have htxs : (Ledger.new (.limited 1) .zero).AllowsAll txs := by decide_cbv
  have hstretch : l.AllowsAll stretch := by decide_cbv
  have hb : l.place b = .waiting := by decide_cbv
  have hd : l.place d = .waiting := by decide_cbv
  have hquiet : ∀ tx ∈ stretch, tx.RegistersNobody := by
    simp [stretch, Transaction.RegistersNobody]
  have hrest : ∀ what ∈ rest, ¬ what.IsCall := by simp [rest, Step.IsCall]
  obtain ⟨hledger, hsession⟩ := free_slots_go_by_priority (.limited 1) .zero
  obtain ⟨hone, hmany⟩ := hledger txs htxs
  refine ⟨htxs, hstretch, hb, ?_, by decide_cbv, hmany stretch hstretch hquiet, ?_⟩
  · exact hone (.evaluate d false) d hd hd (by decide_cbv) (by decide_cbv) b hb
  · exact (hsession steps).1 rest hrest

end Admission
