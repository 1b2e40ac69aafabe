import Admission.Proofs.Ledger
import Admission.Session.Call

/-!
# A ledger for a session

A session knows of each call what became of it. A ledger knows of each ticket where it is. Most of
the time the one follows from the other; only whether a released ticket still holds its entry does
not, since that is a matter of time, which a ledger knows nothing of. `Ledger.Accounts` ties the two
together, and the lemmas below say what changes on both sides when a transaction is carried out.
-/

set_option autoImplicit false

namespace Admission

/-! ## Sessions and ledgers -/

/-- Where the ticket of a call can be, going by what became of the call. Of a released ticket it is
not said whether it still holds its entry: that is a matter of time. -/
def Phase.Fits (phase : Phase) (p : Place) : Prop :=
  match phase with
  | .pending => p = .waiting
  | .admitted _ none => p = .holding
  | .admitted _ (some .endless) => p = .holding
  | .admitted _ (some (.ends _ _)) => p = .holding ∨ p = .nowhere
  | .cancelled => p = .nowhere
  | .abandoned => p = .nowhere

/-- The ledger gives an account of the session: it is right about the controller, and knows the
session's calls, each by its number and in a place that fits what became of it. -/
structure Ledger.Accounts (l : Ledger) (s : Session) : Prop where
  sound : l.Sound
  controller : l.controller = s.controller
  tickets : l.tickets = s.waits.toList.map Wait.ticket
  numbered : ∀ (i : Nat) (t : Ticket), l.tickets[i]? = some t → t.id = i
  fits : ∀ (i : Nat) (w : Wait), s.waits[i]? = some w → w.phase.Fits (l.place w.ticket)

/-- Some ledger accounts for the session. -/
def Session.Orderly (s : Session) : Prop := ∃ l : Ledger, l.Accounts s

namespace Ledger.Accounts

variable {l : Ledger} {s : Session}

theorem new (capacity : Capacity) (linger : Span) :
    (Ledger.new capacity linger).Accounts (Session.new capacity linger) where
  sound := .new capacity linger
  controller := rfl
  tickets := rfl
  numbered i t h := by simp [Ledger.new] at h
  fits i w h := by simp [Session.new] at h

theorem getElem?_tickets (h : l.Accounts s) (i : Nat) :
    l.tickets[i]? = s.waits[i]?.map Wait.ticket := by
  rw [h.tickets, List.getElem?_map, Array.getElem?_toList]

theorem id_eq (h : l.Accounts s) {i : Nat} {w : Wait} (hw : s.waits[i]? = some w) :
    w.ticket.id = i := by
  refine h.numbered i w.ticket ?_
  rw [h.getElem?_tickets, hw]
  rfl

theorem mem_tickets (h : l.Accounts s) {i : Nat} {w : Wait} (hw : s.waits[i]? = some w) :
    w.ticket ∈ l.tickets := by
  refine List.mem_of_getElem? (i := i) ?_
  rw [h.getElem?_tickets, hw]
  rfl

theorem eq_of_ticket_eq (h : l.Accounts s) {i j : Nat} {v w : Wait} (hv : s.waits[i]? = some v)
    (hw : s.waits[j]? = some w) (heq : v.ticket = w.ticket) : i = j := by
  rw [← h.id_eq hv, ← h.id_eq hw, heq]

/-- The clock and the tokens are not part of the account. -/
theorem congr (h : l.Accounts s) {s' : Session} (hcontroller : s'.controller = s.controller)
    (hwaits : s'.waits = s.waits) : l.Accounts s' where
  sound := h.sound
  controller := h.controller.trans hcontroller.symm
  tickets := hwaits ▸ h.tickets
  numbered := h.numbered
  fits := hwaits ▸ h.fits

theorem controller_apply (h : l.Accounts s) (tx : Transaction) :
    (l.apply tx).controller = s.controller.apply tx := by
  rw [← h.controller]
  rfl

/-- One ticket moves, and something fitting becomes of its call; nothing else changes. -/
theorem move (h : l.Accounts s) {l' : Ledger} {i : Nat} {w : Wait} {phase : Phase} {p : Place}
    (hw : s.waits[i]? = some w) (hsound : l'.Sound) (htickets : l'.tickets = l.tickets)
    (hplace : l'.place = Function.update l.place w.ticket p) (hfits : phase.Fits p) :
    l'.Accounts ((s.withController l'.controller).setPhase w.ticket.id phase) where
  sound := hsound
  controller := rfl
  tickets := by
    rw [htickets, h.tickets, Session.setPhase, Session.withController]
    refine List.ext_getElem? fun j => ?_
    simp only [List.getElem?_map, Array.getElem?_toList, Array.getElem?_modify]
    split
    · cases s.waits[j]? <;> rfl
    · rfl
  numbered := htickets ▸ h.numbered
  fits := by
    -- All calls but one are as they were, and their tickets have other numbers.
    intro j v hv
    simp only [Session.setPhase, Session.withController, Array.getElem?_modify, h.id_eq hw] at hv
    rw [hplace]
    by_cases hij : i = j
    · rw [if_pos hij, ← hij, hw] at hv
      obtain rfl := Option.some.inj hv
      simpa using hfits
    · rw [if_neg hij] at hv
      have hne : v.ticket ≠ w.ticket := fun heq => hij (h.eq_of_ticket_eq hw hv heq.symm)
      rw [Function.update_of_ne hne]
      exact h.fits j v hv

theorem setPhase (h : l.Accounts s) {i : Nat} {w : Wait} {phase : Phase}
    (hw : s.waits[i]? = some w) (hfits : phase.Fits (l.place w.ticket)) :
    l.Accounts (s.setPhase w.ticket.id phase) := by
  have hmove := h.move hw h.sound rfl (Function.update_eq_self w.ticket l.place).symm hfits
  rw [h.controller] at hmove
  exact hmove

theorem apply_of_moves (h : l.Accounts s) (tx : Transaction) {i : Nat} {w : Wait} {phase : Phase}
    {p : Place} (hw : s.waits[i]? = some w) (hallow : l.Allows tx)
    (htickets : l.ticketsAfter tx = l.tickets) (hmove : l.move? tx = some (w.ticket, p))
    (hfits : phase.Fits p) :
    (l.apply tx).Accounts
      ((s.withController (s.controller.apply tx)).setPhase w.ticket.id phase) := by
  rw [← h.controller_apply]
  refine h.move hw (h.sound.apply hallow) htickets ?_ hfits
  simp only [Ledger.apply, hmove, moved]

theorem apply_of_moves_none (h : l.Accounts s) (tx : Transaction) (hallow : l.Allows tx)
    (htickets : l.ticketsAfter tx = l.tickets) (hmove : l.move? tx = none) :
    (l.apply tx).Accounts (s.withController (s.controller.apply tx)) where
  sound := h.sound.apply hallow
  controller := h.controller_apply tx
  tickets := htickets.trans h.tickets
  numbered := by
    simp only [Ledger.apply, htickets]
    exact h.numbered
  fits := by
    simp only [Ledger.apply, hmove, moved]
    exact h.fits

/-- The next number is nobody's. -/
theorem ne_of_mem_tickets (h : l.Accounts s) {t : Ticket} (hid : t.id = s.waits.size) :
    ∀ u ∈ l.tickets, u.id ≠ t.id := by
  intro u hu heq
  obtain ⟨i, hi, hget⟩ := List.mem_iff_getElem.mp hu
  have hnum := h.numbered i u (hget ▸ List.getElem?_eq_getElem hi)
  have hsize : l.tickets.length = s.waits.size := by rw [h.tickets]; simp
  omega

theorem register (h : l.Accounts s) {w : Wait} (hid : w.ticket.id = s.waits.size)
    (hphase : w.phase = .pending) : (l.apply (.register w.ticket)).Accounts (s.register w) := by
  have hsize : l.tickets.length = s.waits.size := by rw [h.tickets]; simp
  have hnew := h.ne_of_mem_tickets hid
  refine ⟨h.sound.register hnew, ?_, ?_, ?_, ?_⟩
  · simp only [Ledger.apply, Session.register, h.controller]
  · simp [Ledger.apply, ticketsAfter, Session.register, h.tickets]
  · intro i t ht
    simp only [Ledger.apply, ticketsAfter] at ht
    rcases lt_or_ge i l.tickets.length with hi | hi
    · exact h.numbered i t (List.getElem?_append_left hi ▸ ht)
    · rw [List.getElem?_append_right hi, List.getElem?_singleton] at ht
      split at ht
      · obtain rfl := Option.some.inj ht
        omega
      · cases ht
  · intro i v hv
    simp only [Ledger.apply, move?, moved]
    rw [Session.register, Array.getElem?_push] at hv
    split at hv
    · obtain rfl := Option.some.inj hv
      rw [Function.update_self, hphase]
      rfl
    · have hne : v.ticket ≠ w.ticket := fun heq => hnew v.ticket (h.mem_tickets hv) (heq ▸ rfl)
      rw [Function.update_of_ne hne]
      exact h.fits i v hv

/-! ## Reading the account

Whether a call waits is written in the session, whether a ticket holds its entry in the controller;
the account says both. -/

theorem place_eq_waiting_iff (h : l.Accounts s) {i : Nat} {w : Wait} (hw : s.waits[i]? = some w) :
    l.place w.ticket = .waiting ↔ w.phase = .pending := by
  have hfits := h.fits i w hw
  constructor
  · intro hwait
    rw [hwait] at hfits
    cases hphase : w.phase with
    | pending => rfl
    | cancelled => rw [hphase] at hfits; cases hfits
    | abandoned => rw [hphase] at hfits; cases hfits
    | admitted held release =>
      rw [hphase] at hfits
      rcases release with _ | (_ | _)
      · cases hfits
      · rcases hfits with hp | hp <;> cases hp
      · cases hfits
  · intro hphase
    rw [hphase] at hfits
    exact hfits

theorem place_eq_holding_iff (h : l.Accounts s) {t : Ticket} (ht : t ∈ l.tickets) :
    l.place t = .holding ↔ s.controller.holds t = true := by
  have hids := h.sound.holding.id_mem_ids_iff (h.sound.eq_of_place ht (p := .holding) (by decide))
  rw [← h.controller, Controller.holds, Std.ExtTreeSet.contains_iff_mem, hids]
  simp

/-- Every ticket that is somewhere is the ticket of a call. -/
theorem exists_wait (h : l.Accounts s) {t : Ticket} (ht : l.place t ≠ .nowhere) :
    ∃ w, s.waits[t.id]? = some w ∧ w.ticket = t := by
  obtain ⟨i, hi, hget⟩ := List.mem_iff_getElem.mp (h.sound.known t ht)
  have hti : l.tickets[i]? = some t := hget ▸ List.getElem?_eq_getElem hi
  have hid := h.numbered i t hti
  rw [h.getElem?_tickets, Option.map_eq_some_iff] at hti
  rwa [hid]

end Ledger.Accounts

/-- A call is at the place of its number. -/
theorem Session.Orderly.id_eq {s : Session} (h : s.Orderly) {i : Nat} {w : Wait}
    (hw : s.waits[i]? = some w) : w.ticket.id = i :=
  h.elim fun _ hl => hl.id_eq hw

/-! ## What becomes of a call -/

/-- A ticket that was not released holds its entry, and its release leaves it there. -/
theorem Phase.Fits.release {held held' : Bool} {p : Place} (h : (Phase.admitted held none).Fits p)
    (r : Release) : (Phase.admitted held' (some r)).Fits p := by
  cases r with
  | ends announced freed => exact Or.inl h
  | endless => exact h

/-- Whether a caller still has its handle does not matter for the place of its ticket. -/
theorem Phase.Fits.handle {held held' : Bool} {release : Option Release} {p : Place}
    (h : (Phase.admitted held release).Fits p) : (Phase.admitted held' release).Fits p := by
  rcases release with _ | (_ | _)
  · exact h
  · exact h
  · exact h

theorem Wait.isPending_iff {w : Wait} : w.isPending = true ↔ w.phase = .pending :=
  decide_eq_true_iff

theorem Wait.phase_of_isHeld {w : Wait} (h : w.isHeld = true) :
    w.phase = .admitted true w.release? := by
  unfold Wait.isHeld at h
  unfold Wait.release?
  cases hphase : w.phase with
  | admitted held release =>
    rw [hphase] at h
    obtain rfl : held = true := h
    rfl
  | pending => rw [hphase] at h; cases h
  | cancelled => rw [hphase] at h; cases h
  | abandoned => rw [hphase] at h; cases h

theorem Wait.phase_of_release? {w : Wait} {r : Release} (h : w.release? = some r) :
    ∃ held, w.phase = .admitted held (some r) := by
  unfold Wait.release? at h
  cases hphase : w.phase with
  | admitted held release =>
    rw [hphase] at h
    obtain rfl : release = some r := h
    exact ⟨held, rfl⟩
  | pending => rw [hphase] at h; cases h
  | cancelled => rw [hphase] at h; cases h
  | abandoned => rw [hphase] at h; cases h

end Admission
