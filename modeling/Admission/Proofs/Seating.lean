import Admission.Proofs.Placement
import Admission.Proofs.Tally
import Admission.Proofs.Visits

/-!
# The controller's own checks

The controller checks itself twice. When it looks for the highest class that waits and finds nobody,
it gives up in panic, since the ticket that it looks at should be in the room (`Verdict.orphaned`).
And when a wait is over it asks whether the ticket is out of the room and the views of the room
agree (`Controller.isClearOf`). Neither check can fail, and this is a matter of who does what to
whose seat:

> a ticket has its seat from its registration until its own wait ends, whatever the others do, and
> never has one again.

Both are read off the account that the ledger keeps, so they hold of every interleaving, and of
every moment in the course of every step of a session.
-/

set_option autoImplicit false

namespace Admission

namespace Controller

/-- The ticket has its seat in all four views of the room, each under its own field and no other.
So there is a highest class that waits, not below the ticket's own, and no evaluation of the ticket
finds the room empty. -/
structure Seated (c : Controller) (t : Ticket) : Prop where
  members : c.waiting.contains t.id = true
  byPriority : ∀ k, t.id ∈ c.waiting.byPriority.ids k ↔ k = t.priority
  byReason : ∀ k, t.id ∈ c.waiting.byReason.ids k ↔ k = t.reason
  byEntry : ∀ k, t.id ∈ c.waiting.byEntry.ids k ↔ k = t.entry
  top : ∃ top, c.waiting.topPriority = some top ∧ t.priority ≤ top
  not_orphaned : ∀ cancelled, c.verdict t cancelled ≠ .orphaned

/-- The ticket has no seat in any of the four views, and the controller's check of this succeeds. -/
structure SeenOff (c : Controller) (t : Ticket) : Prop where
  members : t.id ∉ c.waiting.members
  byPriority : ∀ k, t.id ∉ c.waiting.byPriority.ids k
  byReason : ∀ k, t.id ∉ c.waiting.byReason.ids k
  byEntry : ∀ k, t.id ∉ c.waiting.byEntry.ids k
  clear : c.isClearOf t = true

end Controller

namespace Ledger

variable {l : Ledger} {t : Ticket}

namespace Sound

/-! ## Who has a seat -/

theorem seated (h : l.Sound) (ht : l.place t = .waiting) : l.controller.Seated t := by
  have hlocates := h.locates (h.known t (by simp [ht]))
  obtain ⟨top, htop⟩ := h.waiting.exists_topPriority ht
  refine ⟨?_, ?_, ?_, ?_, ⟨top, htop, ?_⟩, fun cancelled horphaned => ?_⟩
  · rw [WaitingRoom.contains, Std.ExtTreeSet.contains_iff_mem]
    exact hlocates.members.mpr ht
  · simpa [ht] using hlocates.byPriority
  · simpa [ht] using hlocates.byReason
  · simpa [ht] using hlocates.byEntry
  · exact ((h.waiting.topPriority_eq_some_iff top).mp htop).2 t ht
  · rw [(Controller.verdict_eq_orphaned_iff.mp horphaned).2] at htop
    cases htop

theorem seenOff (h : l.Sound) (hmem : t ∈ l.tickets) (ht : l.place t ≠ .waiting) :
    l.controller.SeenOff t := by
  have hlocates := h.locates hmem
  have hout : t.id ∉ l.controller.waiting.members := fun hin => ht (hlocates.members.mp hin)
  have hviews := h.waiting.shows (h.injOn_place (by decide))
  refine ⟨hout, ?_, ?_, ?_, ?_⟩
  · exact fun k hin => ht ((hlocates.byPriority k).mp hin).1
  · exact fun k hin => ht ((hlocates.byReason k).mp hin).1
  · exact fun k hin => ht ((hlocates.byEntry k).mp hin).1
  · have hcontains : l.controller.waiting.contains t.id = false :=
      Bool.eq_false_iff.mpr (mt Std.ExtTreeSet.contains_iff_mem.mp hout)
    rw [Controller.isClearOf, hviews.isConsistent, hcontains]
    rfl

end Sound

/-! ## No seat a second time -/

theorem mem_tickets_apply (h : t ∈ l.tickets) (tx : Transaction) : t ∈ (l.apply tx).tickets := by
  cases tx with
  | register u => exact List.mem_append_left [u] h
  | _ => exact h

/-- A ticket that was handed out and does not wait is not registered again, since its number is not
handed out again. -/
theorem place_applyAll_ne_waiting {later : List Transaction} (hmem : t ∈ l.tickets)
    (ht : l.place t ≠ .waiting) (hallow : l.AllowsAll later) :
    t ∈ (l.applyAll later).tickets ∧ (l.applyAll later).place t ≠ .waiting := by
  induction later generalizing l with
  | nil => exact ⟨hmem, ht⟩
  | cons tx rest ih =>
    refine ih (mem_tickets_apply hmem tx) (fun hagain => ?_) hallow.2
    rcases (place_apply_eq_waiting_iff l tx t).mp hagain with rfl | ⟨hwait, -⟩
    · exact hallow.1 t hmem rfl
    · exact ht hwait

/-- The ticket whose wait a transaction ends was handed out, and does not wait afterwards. -/
theorem Sound.place_of_endsWait (h : l.Sound) {tx : Transaction} (hallow : l.Allows tx)
    (hends : l.EndsWait tx t) :
    t ∈ (l.apply tx).tickets ∧ (l.apply tx).place t ≠ .waiting := by
  have hmem : t ∈ l.tickets := by
    rcases hends with ⟨r, hr, rfl⟩ | rfl
    · obtain ⟨cancelled, rfl, -⟩ := Controller.ruling?_eq_some_iff.mp hr
      have hwait : l.place r.ticket = .waiting := hallow
      exact h.known _ (by simp [hwait])
    · exact hallow
  refine ⟨mem_tickets_apply hmem tx, fun hwait => ?_⟩
  rcases (place_apply_eq_waiting_iff l tx t).mp hwait with rfl | ⟨-, hnot⟩
  · exact hallow t hmem rfl
  · exact hnot hends

end Ledger

namespace Session

/-- Everything that the two checks ask for holds of a session as long as some ledger accounts for
it. -/
theorem Orderly.seated_or_seenOff {s : Session} (hs : s.Orderly) {i : Nat} {w : Wait}
    (hw : s.waits[i]? = some w) :
    (w.phase = .pending → s.controller.Seated w.ticket) ∧
      (w.phase ≠ .pending → s.controller.SeenOff w.ticket) := by
  obtain ⟨l, hl⟩ := hs
  rw [← hl.controller]
  refine ⟨fun hpending => ?_, fun hover => ?_⟩
  · exact hl.sound.seated ((hl.place_eq_waiting_iff hw).mpr hpending)
  · exact hl.sound.seenOff (hl.mem_tickets hw) (mt (hl.place_eq_waiting_iff hw).mp hover)

theorem Passes.orderly {s m m' : Session} {what : Step} {events : List Event}
    (h : s.Passes what m m' events) (hs : s.Orderly) : m.Orderly := by
  obtain ⟨s₁, told, before, later, hrequest, hbefore, -⟩ := h
  exact hbefore.orderly (hrequest.replays.orderly hs)

/-- **The controller's own checks never fail.** After every interleaving of transactions: a ticket
that can be evaluated has its seat in all four views of the room, so that the highest class that
waits is there and not below the ticket's own, and the evaluation does not end in panic; and when a
transaction ends a ticket's wait, by either ruling or because its caller goes, then from there on,
whatever transactions come in between, the ticket has a seat in no view, and the check that this is
so and that the views agree succeeds. Likewise at every moment in the course of every step of a
session, of each call that waits and of each whose wait is over. -/
theorem own_checks_never_fail (capacity : Capacity) (linger : Span) :
    (∀ txs, (Ledger.new capacity linger).AllowsAll txs →
      let l := (Ledger.new capacity linger).applyAll txs
      (∀ t cancelled, l.Allows (.evaluate t cancelled) → l.controller.Seated t) ∧
        ∀ tx t, l.Allows tx → l.EndsWait tx t → ∀ later, (l.apply tx).AllowsAll later →
          ((l.apply tx).applyAll later).controller.SeenOff t) ∧
      ∀ (steps : List Step) (what : Step) (m m' : Session) (events : List Event),
        ((new capacity linger).run steps).1.Passes what m m' events →
        ∀ (i : Nat) (w : Wait), m.waits[i]? = some w →
          (w.phase = .pending → m.controller.Seated w.ticket) ∧
            (w.phase ≠ .pending → m.controller.SeenOff w.ticket) := by
  refine ⟨fun txs hallow => ?_, fun steps what m m' events hpasses i w hw => ?_⟩
  · intro l
    have hl : l.Sound := (Ledger.Sound.new capacity linger).applyAll hallow
    refine ⟨fun t cancelled hwait => hl.seated hwait, fun tx t htx hends later hlater => ?_⟩
    obtain ⟨hmem, hover⟩ := hl.place_of_endsWait htx hends
    obtain ⟨hmem', hover'⟩ := Ledger.place_applyAll_ne_waiting hmem hover hlater
    exact ((hl.apply htx).applyAll hlater).seenOff hmem' hover'
  · have hs := (orderly_new capacity linger).run steps
    exact (hpasses.orderly hs).seated_or_seenOff hw

/-- One slot. A caller who waits for it is cancelled and withdrawn while another one comes and waits
in the same class, and the holder expires; in a session, one waits while the slot is held. -/
theorem own_checks_never_fail_one_slot :
    let a : Ticket := ⟨0, ⟨"udp", "", "a"⟩, "x", .standard⟩
    let b : Ticket := ⟨1, ⟨"udp", "", "b"⟩, "x", .standard⟩
    let d : Ticket := ⟨2, ⟨"udp", "", "d"⟩, "y", .standard⟩
    let txs := [.register a, .evaluate a false, .register b, .register d]
    let later := [.expire a, .evaluate d false]
    let l := (Ledger.new (.limited 1) .zero).applyAll txs
    let steps := [.wait a.entry "x" .standard "k" none, .wait b.entry "x" .standard "k" none]
    let s := ((new (.limited 1) .zero).run steps).1
    l.controller.Seated b ∧
      ((l.apply (.evaluate b true)).applyAll later).controller.SeenOff b ∧
      ∃ v w, s.waits[0]? = some v ∧ s.waits[1]? = some w ∧ s.controller.SeenOff v.ticket ∧
        s.controller.Seated w.ticket := by
  intro a b d txs later l steps s
  obtain ⟨hledger, hsession⟩ := own_checks_never_fail (.limited 1) .zero
  have hallow : (Ledger.new (.limited 1) .zero).AllowsAll txs := by decide_cbv
  have hrest : l.Allows (.evaluate b false) ∧ l.Allows (.evaluate b true) ∧
      (l.apply (.evaluate b true)).AllowsAll later := by
    subst l later txs d b a
    decide_cbv
  have hends : l.controller.ruling? (.evaluate b true) = some ⟨b, .withdrawn, false⟩ := by
    subst l later txs d b a
    decide_cbv
  have hwaits : s.waits[0]? = some ⟨a, "k", 0, none, .admitted true none⟩ ∧
      s.waits[1]? = some ⟨b, "k", 0, none, .pending⟩ := by
    subst s steps d b a
    decide_cbv
  obtain ⟨hseated, hseenOff⟩ := hledger txs hallow
  have hmoments := hsession steps .capacity
  have hl : (Ledger.new (.limited 1) .zero).applyAll txs = l := rfl
  have hs : ((new (.limited 1) .zero).run steps).1 = s := rfl
  rw [hl] at hseated hseenOff
  rw [hs] at hmoments
  clear_value s l
  have hpasses : s.Passes .capacity s s [] :=
    ⟨s, [], [], _, .question (fun h => h) (by simp) (by simp) rfl, .refl s, turns_settle s, rfl⟩
  have hmoment := hmoments s s [] hpasses
  refine ⟨hseated b false hrest.1, ?_, _, _, hwaits.1, hwaits.2, ?_, ?_⟩
  · exact hseenOff _ b hrest.2.1 (Or.inl ⟨_, hends, rfl⟩) later hrest.2.2
  · exact (hmoment 0 _ hwaits.1).2 (by simp)
  · exact (hmoment 1 _ hwaits.2).1 rfl

end Session

end Admission
