import Admission.Proofs.Contention
import Admission.Proofs.Occupancy

/-!
# Sessions that differ in names only

Two sessions with the same calls, under other entries, other priorities and other reasons. What the
controller answers is the same in both, as long as the new entries are as different from each other
as the old ones are, and the new priorities stand in the same order:

> the indexes have other keys, but under corresponding keys they file the same calls.

So it is never looked at how an index is ordered. Every answer is said in terms of the calls, and
the calls correspond one by one (`Renaming.Alike`).
-/

set_option autoImplicit false

namespace Admission

/-- New entries and priorities for some of them: different entries stay different and keep their
protocols, and higher priorities stay higher. -/
structure Renaming where
  /-- The entries that get a new name. -/
  entries : Set Entry
  /-- The priorities that get another value. -/
  priorities : Set Priority
  entry : Entry → Entry
  priority : Priority → Priority
  injOn : Set.InjOn entry entries
  protocol_eq : ∀ e ∈ entries, (entry e).protocol = e.protocol
  lt : ∀ p ∈ priorities, ∀ q ∈ priorities, p < q → priority p < priority q

namespace Renaming

/-- The ticket under its new names. The reason may be any. -/
structure Tickets (R : Renaming) (t t' : Ticket) : Prop where
  id : t'.id = t.id
  mem_entries : t.entry ∈ R.entries
  mem_priorities : t.priority ∈ R.priorities
  entry : t'.entry = R.entry t.entry
  priority : t'.priority = R.priority t.priority

/-- The call under its new names. -/
structure Calls (R : Renaming) (w w' : Wait) : Prop where
  tickets : R.Tickets w.ticket w'.ticket
  eq : w' = { w with ticket := w'.ticket }

/-- The sessions have the same calls, but for names, and the same of them hold their entries. In
everything else they are equal. -/
structure Alike (R : Renaming) (s s' : Session) : Prop where
  clock : s'.clock = s.clock
  fallback : s'.fallback = s.fallback
  cancelledTokens : s'.cancelledTokens = s.cancelledTokens
  capacity : s'.controller.capacity = s.controller.capacity
  policy : s'.controller.policy = s.controller.policy
  size : s'.waits.size = s.waits.size
  waits : ∀ (i : Nat) (w : Wait), s.waits[i]? = some w →
    ∃ w', s'.waits[i]? = some w' ∧ R.Calls w w' ∧
      s'.controller.holds w'.ticket = s.controller.holds w.ticket

variable {R : Renaming} {s s' : Session} {w w' : Wait} {i : Nat}

/-! ## Priorities -/

theorem priority_le_iff {p q : Priority} (hp : p ∈ R.priorities) (hq : q ∈ R.priorities) :
    R.priority p ≤ R.priority q ↔ p ≤ q := by
  rcases Int.lt_trichotomy p.value q.value with hlt | heq | hgt
  · have hafter : (R.priority p).value < (R.priority q).value := R.lt p hp q hq hlt
    exact iff_of_true hafter.le hlt.le
  · rw [Priority.ext heq]
    exact iff_of_true (Int.le_refl _) (Int.le_refl _)
  · have hafter : (R.priority q).value < (R.priority p).value := R.lt q hq p hp hgt
    exact iff_of_false (not_le.mpr hafter) (not_le.mpr hgt)

theorem priority_inj {p q : Priority} (hp : p ∈ R.priorities) (hq : q ∈ R.priorities) :
    R.priority p = R.priority q ↔ p = q := by
  refine ⟨fun h => Priority.ext ?_, fun h => h ▸ rfl⟩
  have hle : p ≤ q := (priority_le_iff hp hq).mp (h ▸ Int.le_refl _)
  have hge : q ≤ p := (priority_le_iff hq hp).mp (h ▸ Int.le_refl _)
  exact Int.le_antisymm hle hge

/-! ## Calls -/

namespace Calls

theorem token_eq (h : R.Calls w w') : w'.token = w.token := by rw [h.eq]

theorem startedAt_eq (h : R.Calls w w') : w'.startedAt = w.startedAt := by rw [h.eq]

theorem phase_eq (h : R.Calls w w') : w'.phase = w.phase := by rw [h.eq]

theorem isPending_eq (h : R.Calls w w') : w'.isPending = w.isPending := by rw [h.eq]; rfl

theorem isHeld_eq (h : R.Calls w w') : w'.isHeld = w.isHeld := by rw [h.eq]; rfl

theorem release?_eq (h : R.Calls w w') : w'.release? = w.release? := by rw [h.eq]; rfl

theorem announcedEnd?_eq (h : R.Calls w w') : w'.announcedEnd? = w.announcedEnd? := by
  rw [h.eq]; rfl

theorem announcedDeadline?_eq (h : R.Calls w w') :
    w'.announcedDeadline? = w.announcedDeadline? := by rw [h.eq]; rfl

theorem isOverdue_eq (h : R.Calls w w') (now : Nat) : w'.isOverdue now = w.isOverdue now := by
  rw [h.eq]; rfl

theorem withPhase (h : R.Calls w w') (phase : Phase) :
    R.Calls { w with phase := phase } { w' with phase := phase } where
  tickets := h.tickets
  eq := by rw [h.eq]

end Calls

namespace Alike

/-! ## Corresponding calls -/

theorem now_eq (h : R.Alike s s') : s'.now = s.now := by rw [Session.now, h.clock, Session.now]

theorem exists_call (h : R.Alike s s') (hw' : s'.waits[i]? = some w') :
    ∃ w, s.waits[i]? = some w ∧ R.Calls w w' ∧
      s'.controller.holds w'.ticket = s.controller.holds w.ticket := by
  obtain ⟨hi, -⟩ := Array.getElem?_eq_some_iff.mp hw'
  rw [h.size] at hi
  obtain ⟨v', hv', hcalls, hholds⟩ := h.waits i s.waits[i] (Array.getElem?_eq_getElem hi)
  obtain rfl := Option.some.inj (hw'.symm.trans hv')
  exact ⟨s.waits[i], Array.getElem?_eq_getElem hi, hcalls, hholds⟩

/-- Under a number both sessions have a call, or neither has one. -/
theorem calls_cases (h : R.Alike s s') (i : Nat) :
    (s.waits[i]? = none ∧ s'.waits[i]? = none) ∨
      ∃ w w', s.waits[i]? = some w ∧ s'.waits[i]? = some w' ∧ R.Calls w w' ∧
        s'.controller.holds w'.ticket = s.controller.holds w.ticket := by
  cases hw : s.waits[i]? with
  | none =>
    refine Or.inl ⟨rfl, ?_⟩
    rw [Array.getElem?_eq_none_iff] at hw ⊢
    rwa [h.size]
  | some w =>
    obtain ⟨w', hw', hcalls, hholds⟩ := h.waits i w hw
    exact Or.inr ⟨w, w', rfl, hw', hcalls, hholds⟩

theorem calls (h : R.Alike s s') (hw : s.waits[i]? = some w) (hw' : s'.waits[i]? = some w') :
    R.Calls w w' ∧ s'.controller.holds w'.ticket = s.controller.holds w.ticket := by
  obtain ⟨v', hv', hcalls, hholds⟩ := h.waits i w hw
  obtain rfl := Option.some.inj (hw'.symm.trans hv')
  exact ⟨hcalls, hholds⟩

theorem pendingIds_eq (h : R.Alike s s') : s'.pendingIds = s.pendingIds := by
  rw [Session.pendingIds, Session.pendingIds, h.size]
  refine List.filter_congr fun i _ => ?_
  rcases h.calls_cases i with ⟨hw, hw'⟩ | ⟨w, w', hw, hw', hcalls, -⟩
  · rw [hw, hw']
  · rw [hw, hw', Option.map_some, Option.map_some, hcalls.isPending_eq]

theorem isCancelled_eq (h : R.Alike s s') (hcalls : R.Calls w w') :
    s'.isCancelled w' = s.isCancelled w := by
  rw [Session.isCancelled, Session.isCancelled, Session.isTokenCancelled, Session.isTokenCancelled,
    h.cancelledTokens, hcalls.token_eq, h.now_eq, hcalls.isOverdue_eq]

theorem waited_eq (h : R.Alike s s') (hcalls : R.Calls w w') : s'.waited w' = s.waited w := by
  rw [Session.waited, Session.waited, h.now_eq, hcalls.startedAt_eq]

/-! ## Who holds what -/

theorem mem_ids_iff (h : R.Alike s s') (hs : s.Orderly) (hs' : s'.Orderly) {e : Entry}
    (he : e ∈ R.entries) :
    i ∈ s'.controller.occupancy.ids (R.entry e) ↔ i ∈ s.controller.occupancy.ids e := by
  rw [Session.mem_ids_iff_holds hs, Session.mem_ids_iff_holds hs']
  constructor
  · rintro ⟨w', hw', hentry, hholds⟩
    obtain ⟨w, hw, hcalls, hsame⟩ := h.exists_call hw'
    rw [hcalls.tickets.entry] at hentry
    exact ⟨w, hw, R.injOn hcalls.tickets.mem_entries he hentry, hsame ▸ hholds⟩
  · rintro ⟨w, hw, rfl, hholds⟩
    obtain ⟨w', hw', hcalls, hsame⟩ := h.waits i w hw
    exact ⟨w', hw', hcalls.tickets.entry, hsame.trans hholds⟩

theorem isOccupied_eq (h : R.Alike s s') (hs : s.Orderly) (hs' : s'.Orderly) {e : Entry}
    (he : e ∈ R.entries) :
    s'.controller.isOccupied (R.entry e) = s.controller.isOccupied e := by
  rw [Bool.eq_iff_iff, Session.isOccupied_iff_exists_mem hs, Session.isOccupied_iff_exists_mem hs']
  exact exists_congr fun i => h.mem_ids_iff hs hs' he

/-- Every occupied entry is one that gets a new name. -/
theorem mem_entries_of_isOccupied (h : R.Alike s s') (hs : s.Orderly) {e : Entry}
    (he : s.controller.isOccupied e = true) : e ∈ R.entries := by
  obtain ⟨i, hi⟩ := (Session.isOccupied_iff_exists_mem hs).mp he
  obtain ⟨w, hw, rfl, -⟩ := (Session.mem_ids_iff_holds hs).mp hi
  obtain ⟨_, -, hcalls, -⟩ := h.waits i w hw
  exact hcalls.tickets.mem_entries

/-- The occupied entries are the new names of those that are occupied in the other session. -/
theorem occupied_eq (h : R.Alike s s') (hs : s.Orderly) (hs' : s'.Orderly) :
    s'.controller.occupied = s.controller.occupied.image R.entry := by
  ext e'
  rw [Controller.mem_occupied_iff, Finset.mem_image]
  constructor
  · intro he'
    obtain ⟨i, hi⟩ := (Session.isOccupied_iff_exists_mem hs').mp he'
    obtain ⟨w', hw', rfl, -⟩ := (Session.mem_ids_iff_holds hs').mp hi
    obtain ⟨w, -, hcalls, -⟩ := h.exists_call hw'
    rw [hcalls.tickets.entry, h.isOccupied_eq hs hs' hcalls.tickets.mem_entries] at he'
    exact ⟨w.ticket.entry, Controller.mem_occupied_iff.mpr he', hcalls.tickets.entry.symm⟩
  · rintro ⟨e, he, rfl⟩
    have hocc := Controller.mem_occupied_iff.mp he
    rwa [h.isOccupied_eq hs hs' (h.mem_entries_of_isOccupied hs hocc)]

theorem numEntries_eq (h : R.Alike s s') (hs : s.Orderly) (hs' : s'.Orderly) :
    s'.controller.numEntries = s.controller.numEntries := by
  rw [← Controller.card_occupied, ← Controller.card_occupied, h.occupied_eq hs hs']
  refine Finset.card_image_of_injOn (R.injOn.mono fun e he => ?_)
  exact h.mem_entries_of_isOccupied hs (Controller.mem_occupied_iff.mp he)

theorem numHolders_eq (h : R.Alike s s') (hs : s.Orderly) (hs' : s'.Orderly) :
    s'.controller.numHolders = s.controller.numHolders := by
  rw [Session.numHolders_eq_ncard_holds hs, Session.numHolders_eq_ncard_holds hs']
  congr 1
  ext i
  constructor
  · rintro ⟨w', hw', hholds⟩
    obtain ⟨w, hw, -, hsame⟩ := h.exists_call hw'
    exact ⟨w, hw, hsame ▸ hholds⟩
  · rintro ⟨w, hw, hholds⟩
    obtain ⟨w', hw', -, hsame⟩ := h.waits i w hw
    exact ⟨w', hw', hsame.trans hholds⟩

theorem hasRoom_eq (h : R.Alike s s') (hs : s.Orderly) (hs' : s'.Orderly) :
    s'.controller.hasRoom = s.controller.hasRoom := by
  rw [Controller.hasRoom, Controller.hasRoom, h.capacity, h.numEntries_eq hs hs']

theorem wouldFree_eq (h : R.Alike s s') (hs : s.Orderly) (hs' : s'.Orderly)
    (hw : s.waits[i]? = some w) (hw' : s'.waits[i]? = some w')
    (hholds : s.controller.holds w.ticket = true) :
    s'.controller.wouldFree w'.ticket = s.controller.wouldFree w.ticket := by
  obtain ⟨hcalls, hsame⟩ := h.calls hw hw'
  rw [Bool.eq_iff_iff, Session.wouldFree_iff hholds, Session.wouldFree_iff (hsame.trans hholds),
    hcalls.tickets.entry, hcalls.tickets.id]
  exact forall_congr' fun j => imp_congr_left (h.mem_ids_iff hs hs' hcalls.tickets.mem_entries)

/-! ## Who waits for what -/

theorem size_waiting_eq (h : R.Alike s s') (hs : s.Orderly) (hs' : s'.Orderly) :
    s'.controller.waiting.size = s.controller.waiting.size := by
  rw [Session.size_waiting hs, Session.size_waiting hs', h.pendingIds_eq]

theorem waitingFor_eq (h : R.Alike s s') (hs : s.Orderly) (hs' : s'.Orderly) {e : Entry}
    (he : e ∈ R.entries) :
    s'.controller.waiting.waitingFor (R.entry e) = s.controller.waiting.waitingFor e := by
  rw [Session.waitingFor_eq hs, Session.waitingFor_eq hs', h.pendingIds_eq]
  refine List.countP_congr fun i hi => ?_
  obtain ⟨w, hw, -⟩ := Session.mem_pendingIds_iff.mp hi
  obtain ⟨w', hw', hcalls, -⟩ := h.waits i w hw
  rw [hw, hw', Option.map_some, Option.map_some, hcalls.tickets.entry, decide_eq_true_iff,
    decide_eq_true_iff, Option.some.injEq, Option.some.injEq]
  exact R.injOn.eq_iff hcalls.tickets.mem_entries he

end Alike

end Renaming

namespace Session

/-- The highest class that waits, in terms of the calls. -/
theorem topPriority_eq_some_iff {s : Session} (hs : s.Orderly) {p : Priority} :
    s.controller.waiting.topPriority = some p ↔
      (∃ (i : Nat) (w : Wait), s.waits[i]? = some w ∧ w.phase = .pending ∧ w.ticket.priority = p) ∧
        ∀ (i : Nat) (w : Wait), s.waits[i]? = some w → w.phase = .pending →
          w.ticket.priority ≤ p := by
  obtain ⟨l, hl⟩ := hs
  rw [← hl.controller, hl.sound.waiting.topPriority_eq_some_iff]
  constructor
  · rintro ⟨⟨t, ht, rfl⟩, hmax⟩
    have hplace : l.place t = .waiting := ht
    obtain ⟨w, hw, rfl⟩ := hl.exists_wait (t := t) (by simp [hplace])
    refine ⟨⟨_, w, hw, (hl.place_eq_waiting_iff hw).mp hplace, rfl⟩, fun i v hv hpending => ?_⟩
    exact hmax v.ticket ((hl.place_eq_waiting_iff hv).mpr hpending)
  · rintro ⟨⟨i, w, hw, hpending, rfl⟩, hmax⟩
    refine ⟨⟨w.ticket, (hl.place_eq_waiting_iff hw).mpr hpending, rfl⟩, fun t ht => ?_⟩
    have hplace : l.place t = .waiting := ht
    obtain ⟨v, hv, rfl⟩ := hl.exists_wait (t := t) (by simp [hplace])
    exact hmax _ v hv ((hl.place_eq_waiting_iff hv).mp hplace)

/-- Two calls of a session with the same number are the same call. -/
theorem same_ticket_iff {s : Session} (hs : s.Orderly) {i j : Nat} {v w : Wait}
    (hv : s.waits[j]? = some v) (hw : s.waits[i]? = some w) :
    v.ticket.entry = w.ticket.entry ∧ v.ticket.id = w.ticket.id ↔ v.ticket.id = w.ticket.id := by
  refine and_iff_right_of_imp fun hid => ?_
  rw [hs.id_eq hv, hs.id_eq hw] at hid
  rw [hid, hw] at hv
  rw [Option.some.inj hv]

end Session

namespace Renaming

variable {R : Renaming} {s s' : Session} {w w' : Wait} {i : Nat}

namespace Alike

theorem topPriority_eq (h : R.Alike s s') (hs : s.Orderly) (hs' : s'.Orderly) :
    s'.controller.waiting.topPriority = s.controller.waiting.topPriority.map R.priority := by
  ext q
  rw [Session.topPriority_eq_some_iff hs', Option.map_eq_some_iff]
  simp only [Session.topPriority_eq_some_iff hs]
  constructor
  · rintro ⟨⟨i, w', hw', hpending', rfl⟩, hmax⟩
    obtain ⟨w, hw, hcalls, -⟩ := h.exists_call hw'
    refine ⟨w.ticket.priority, ⟨⟨i, w, hw, hcalls.phase_eq ▸ hpending', rfl⟩, ?_⟩,
      hcalls.tickets.priority.symm⟩
    intro j v hv hpending
    obtain ⟨v', hv', hcalls', -⟩ := h.waits j v hv
    have hle := hmax j v' hv' (hcalls'.phase_eq.trans hpending)
    rw [hcalls'.tickets.priority, hcalls.tickets.priority] at hle
    exact (priority_le_iff hcalls'.tickets.mem_priorities hcalls.tickets.mem_priorities).mp hle
  · rintro ⟨p, ⟨⟨i, w, hw, hpending, rfl⟩, hmax⟩, rfl⟩
    obtain ⟨w', hw', hcalls, -⟩ := h.waits i w hw
    refine ⟨⟨i, w', hw', hcalls.phase_eq.trans hpending, hcalls.tickets.priority⟩, ?_⟩
    intro j v' hv' hpending'
    obtain ⟨v, hv, hcalls', -⟩ := h.exists_call hv'
    rw [hcalls'.tickets.priority]
    exact (priority_le_iff hcalls'.tickets.mem_priorities hcalls.tickets.mem_priorities).mpr
      (hmax j v hv (hcalls'.phase_eq ▸ hpending'))

/-- **Corresponding tickets get the same verdict.** -/
theorem verdict_eq (h : R.Alike s s') (hs : s.Orderly) (hs' : s'.Orderly) {t t' : Ticket}
    (ht : R.Tickets t t') (cancelled : Bool) :
    s'.controller.verdict t' cancelled = s.controller.verdict t cancelled := by
  unfold Controller.verdict
  rw [ht.entry, h.isOccupied_eq hs hs' ht.mem_entries, h.topPriority_eq hs hs', h.hasRoom_eq hs hs']
  cases htop : s.controller.waiting.topPriority with
  | none => rfl
  | some top =>
    obtain ⟨⟨i, w, hw, -, rfl⟩, -⟩ := (Session.topPriority_eq_some_iff hs).mp htop
    obtain ⟨w', -, hcalls, -⟩ := h.waits i w hw
    have htop_iff := priority_inj ht.mem_priorities hcalls.tickets.mem_priorities
    simp only [Option.map_some, ht.priority, htop_iff]

/-! ## What keeps sessions alike -/

theorem atClock (h : R.Alike s s') (ms : Nat) :
    R.Alike { s with clock := ms } { s' with clock := ms } :=
  ⟨rfl, h.fallback, h.cancelledTokens, h.capacity, h.policy, h.size, h.waits⟩

/-- What becomes of one call. -/
theorem setPhase (h : R.Alike s s') (i : Nat) (phase : Phase) :
    R.Alike (s.setPhase i phase) (s'.setPhase i phase) where
  clock := h.clock
  fallback := h.fallback
  cancelledTokens := h.cancelledTokens
  capacity := h.capacity
  policy := h.policy
  size := by simp only [Session.setPhase, Array.size_modify, h.size]
  waits j w hw := by
    rw [Session.getElem?_setPhase] at hw ⊢
    by_cases hij : i = j
    · rw [if_pos hij] at hw ⊢
      obtain ⟨v, hv, rfl⟩ := Option.map_eq_some_iff.mp hw
      obtain ⟨v', hv', hcalls, hholds⟩ := h.waits j v hv
      exact ⟨_, by rw [hv', Option.map_some], hcalls.withPhase phase, hholds⟩
    · rw [if_neg hij] at hw ⊢
      exact h.waits j w hw

/-- Another state of the controller, if it has the same settings and the same calls hold their
entries. -/
theorem withController (h : R.Alike s s') {c c' : Controller} (hcapacity : c'.capacity = c.capacity)
    (hpolicy : c'.policy = c.policy)
    (hholds : ∀ (i : Nat) (w w' : Wait), s.waits[i]? = some w → s'.waits[i]? = some w' →
      R.Calls w w' → s'.controller.holds w'.ticket = s.controller.holds w.ticket →
      c'.holds w'.ticket = c.holds w.ticket) :
    R.Alike (s.withController c) (s'.withController c') where
  clock := h.clock
  fallback := h.fallback
  cancelledTokens := h.cancelledTokens
  capacity := hcapacity
  policy := hpolicy
  size := h.size
  waits i w hw := by
    obtain ⟨w', hw', hcalls, hsame⟩ := h.waits i w hw
    exact ⟨w', hw', hcalls, hholds i w w' hw hw' hcalls hsame⟩

/-- Corresponding calls of two sessions have the same numbers. -/
theorem same_ticket_iff_of_calls (hs : s.Orderly) (hs' : s'.Orderly) {j : Nat} {v v' : Wait}
    (hv : s.waits[j]? = some v) (hv' : s'.waits[j]? = some v') (hw : s.waits[i]? = some w)
    (hw' : s'.waits[i]? = some w') (hcv : R.Calls v v') (hcw : R.Calls w w') :
    v'.ticket.entry = w'.ticket.entry ∧ v'.ticket.id = w'.ticket.id ↔
      v.ticket.entry = w.ticket.entry ∧ v.ticket.id = w.ticket.id := by
  rw [Session.same_ticket_iff hs hv hw, Session.same_ticket_iff hs' hv' hw', hcv.tickets.id,
    hcw.tickets.id]

theorem grant (h : R.Alike s s') (hs : s.Orderly) (hs' : s'.Orderly) (hw : s.waits[i]? = some w)
    (hw' : s'.waits[i]? = some w') :
    R.Alike (s.withController (s.controller.grant w.ticket))
      (s'.withController (s'.controller.grant w'.ticket)) := by
  have hcw := (h.calls hw hw').1
  refine h.withController h.capacity h.policy fun j v v' hv hv' hcv hsame => ?_
  rw [Bool.eq_iff_iff, Controller.holds_grant_iff, Controller.holds_grant_iff, hsame]
  exact or_congr_left (same_ticket_iff_of_calls hs hs' hv hv' hw hw' hcv hcw)

theorem expire (h : R.Alike s s') (hs : s.Orderly) (hs' : s'.Orderly) (hw : s.waits[i]? = some w)
    (hw' : s'.waits[i]? = some w') :
    R.Alike (s.withController (s.controller.apply (.expire w.ticket)))
      (s'.withController (s'.controller.apply (.expire w'.ticket))) := by
  have hcw := (h.calls hw hw').1
  refine h.withController h.capacity h.policy fun j v v' hv hv' hcv hsame => ?_
  rw [Bool.eq_iff_iff, Controller.holds_expire_iff, Controller.holds_expire_iff, hsame]
  exact and_congr_right' (not_congr (same_ticket_iff_of_calls hs hs' hv hv' hw hw' hcv hcw))

/-- Whoever leaves the waiting room, nobody leaves an entry. -/
theorem withdraw (h : R.Alike s s') (t t' : Ticket) :
    R.Alike (s.withController (s.controller.withdraw t))
      (s'.withController (s'.controller.withdraw t')) :=
  h.withController h.capacity h.policy fun _ _ _ _ _ _ hsame => hsame

/-- A new call, which holds nothing yet. -/
theorem register (h : R.Alike s s') (hs : s.Orderly) (hs' : s'.Orderly) (hcalls : R.Calls w w')
    (hid : w.ticket.id = s.waits.size) : R.Alike (s.register w) (s'.register w') where
  clock := h.clock
  fallback := h.fallback
  cancelledTokens := h.cancelledTokens
  capacity := h.capacity
  policy := h.policy
  size := by simp only [Session.register, Array.size_push, h.size]
  waits j v hv := by
    simp only [Session.register, Array.getElem?_push, h.size] at hv ⊢
    by_cases hj : j = s.waits.size
    · rw [if_pos hj] at hv ⊢
      obtain rfl := Option.some.inj hv
      have hnobody : ∀ {s : Session} {w : Wait}, s.Orderly → w.ticket.id = s.waits.size →
          (s.controller.apply (.register w.ticket)).holds w.ticket = false := by
        intro s w hs hid
        rw [← Bool.not_eq_true, Controller.holds, Std.ExtTreeSet.contains_iff_mem, hid]
        intro hmem
        obtain ⟨v, hv, -⟩ := (Session.mem_ids_iff_holds hs).mp hmem
        exact absurd (Array.getElem?_eq_some_iff.mp hv).1 (lt_irrefl _)
      have hid' : w'.ticket.id = s'.waits.size := by rw [hcalls.tickets.id, hid, h.size]
      exact ⟨w', rfl, hcalls, (hnobody hs' hid').trans (hnobody hs hid).symm⟩
    · rw [if_neg hj] at hv ⊢
      exact h.waits j v hv

/-! ## Timers -/

theorem lingerEnd?_eq (hcalls : R.Calls w w')
    (hholds : s'.controller.holds w'.ticket = s.controller.holds w.ticket) :
    s'.lingerEnd? w' = s.lingerEnd? w := by
  rw [Session.lingerEnd?, Session.lingerEnd?, hcalls.release?_eq, hholds]

theorem lingerStop?_eq (hcalls : R.Calls w w')
    (hholds : s'.controller.holds w'.ticket = s.controller.holds w.ticket) :
    s'.lingerStop? w' = s.lingerStop? w := by
  rw [Session.lingerStop?, Session.lingerStop?, hcalls.announcedEnd?_eq, hholds]

/-- The clock makes the same stops. -/
theorem ends_eq (h : R.Alike s s') : s'.ends = s.ends := by
  rw [Session.ends, Session.ends, List.flatMap_def, List.flatMap_def]
  congr 1
  refine List.ext_getElem? fun i => ?_
  rw [List.getElem?_map, List.getElem?_map, Array.getElem?_toList, Array.getElem?_toList]
  rcases h.calls_cases i with ⟨hw, hw'⟩ | ⟨w, w', hw, hw', hcalls, hholds⟩
  · rw [hw, hw']
    rfl
  · rw [hw, hw', Option.map_some, Option.map_some, hcalls.announcedDeadline?_eq,
      lingerStop?_eq hcalls hholds]

theorem nextStop?_eq (h : R.Alike s s') : s'.nextStop? = s.nextStop? := by
  rw [Session.nextStop?, Session.nextStop?, h.ends_eq, h.now_eq]

end Alike

end Renaming

end Admission
