import Admission.Proofs.FirstRelease

/-!
# A call disturbs nobody

A new call may raise the highest class that waits, share an entry, take a slot, or be cancelled at
once. In a session at rest none of this is of any consequence for the others:

> if somebody waits, the limit is reached, and then a newcomer can at most share an entry, which
> makes no room and takes none; and if nobody waits, there is nobody to disturb.

So the step of a call settles nobody but the newcomer. And where the newcomer has to wait, nothing
has happened but that it entered the waiting room, and its leaving undoes just that.
-/

set_option autoImplicit false

namespace Admission

namespace WaitingRoom

variable {r r' : WaitingRoom} {W : Set Ticket} {t : Ticket} {i : Nat}

/-- The number stands in the same places of both rooms. -/
structure SameSeats (r r' : WaitingRoom) (i : Nat) : Prop where
  members : i ∈ r'.members ↔ i ∈ r.members
  byPriority : ∀ k, i ∈ r'.byPriority.ids k ↔ i ∈ r.byPriority.ids k
  byReason : ∀ k, i ∈ r'.byReason.ids k ↔ i ∈ r.byReason.ids k
  byEntry : ∀ k, i ∈ r'.byEntry.ids k ↔ i ∈ r.byEntry.ids k

/-- Who enters moves nobody else. -/
theorem sameSeats_enter (r : WaitingRoom) (hi : i ≠ t.id) : r.SameSeats (r.enter t) i := by
  by_cases hin : r.contains t.id = true
  · rw [enter_of_contains hin]
    exact ⟨Iff.rfl, fun _ => Iff.rfl, fun _ => Iff.rfl, fun _ => Iff.rfl⟩
  · rw [enter, if_neg hin]
    refine ⟨?_, ?_, ?_, ?_⟩
    · rw [Std.ExtTreeSet.mem_insert, compare_eq_iff_eq]
      simp [Ne.symm hi]
    · simp [Buckets.mem_ids_add, hi]
    · simp [Buckets.mem_ids_add, hi]
    · simp [Buckets.mem_ids_add, hi]

/-- **To leave undoes to enter.** -/
theorem Seats.leave_enter (h : r.Seats W) (hnew : ∀ u ∈ W, u.id ≠ t.id) :
    (r.enter t).leave t = r := by
  have hout : t ∉ W := fun ht => hnew t ht rfl
  have hentered := h.enter (t := t) fun u hu hid => absurd hid (hnew u hu)
  have hleft := hentered.leave (t := t) fun u hu hid => by
    rcases hu with rfl | hu
    · rfl
    · exact absurd hid (hnew u hu)
  rw [Set.insert_sdiff_self_of_notMem hout] at hleft
  exact hleft.unique h

end WaitingRoom

namespace Controller

variable {c : Controller} {t u : Ticket} {cancelled : Bool}

/-- The controller with one more holder of an entry. -/
def share (c : Controller) (t : Ticket) : Controller :=
  { c with occupancy := c.occupancy.add t.entry t.id }

/-- To share an entry that is occupied makes no difference to anybody else. -/
theorem verdict_share (h : c.isOccupied t.entry = true) :
    (c.share t).verdict u cancelled = c.verdict u cancelled := by
  have hcount : (c.share t).numEntries = c.numEntries := Buckets.size_add_of_contains h t.id
  refine verdict_congr ?_ rfl ?_
  · refine Bool.eq_iff_iff.mpr ((Buckets.contains_add_iff _ _ _ _).trans (or_iff_right_of_imp ?_))
    rintro heq
    rw [heq]
    exact h
  · rw [hasRoom, hcount]
    rfl

theorem holds_share (h : u.id ≠ t.id) : (c.share t).holds u = c.holds u := by
  refine Bool.eq_iff_iff.mpr ?_
  simp only [holds, share, Std.ExtTreeSet.contains_iff_mem, Buckets.mem_ids_add, h, and_false,
    false_or]

end Controller

namespace Session

variable {s : Session} {l : Ledger} {c : Controller} {v w : Wait}

/-- The session with another controller and one more call. -/
def withCall (s : Session) (c : Controller) (v : Wait) : Session :=
  { s with controller := c, waits := s.waits.push v }

theorem getElem?_withCall (s : Session) (c : Controller) (v : Wait) (i : Nat) :
    (s.withCall c v).waits[i]? = if i = s.waits.size then some v else s.waits[i]? :=
  Array.getElem?_push

theorem withCall_setPhase (hid : v.ticket.id = s.waits.size) (phase : Phase) :
    (s.withCall c v).setPhase v.ticket.id phase = s.withCall c { v with phase := phase } := by
  have hwaits : ((s.withCall c v).setPhase v.ticket.id phase).waits =
      (s.withCall c { v with phase := phase }).waits := by
    refine Array.ext_getElem? fun i => ?_
    rw [getElem?_setPhase, getElem?_withCall, getElem?_withCall, hid]
    by_cases hi : s.waits.size = i
    · simp [hi]
    · rw [if_neg hi, if_neg (Ne.symm hi), if_neg (Ne.symm hi)]
  simp only [setPhase, withCall] at hwaits ⊢
  rw [hwaits]

/-! ## A call that does not wait

As far as settling goes, a session at rest stays at rest with one more call that does not wait, if
those who wait are judged alike and nobody's hold has changed. -/

theorem noneDue_withCall (hnone : s.NoneDue) (hrelease : v.release? = none)
    (hholds : ∀ (i : Nat) (w : Wait), s.waits[i]? = some w →
      s.controller.holds w.ticket = c.holds w.ticket) : (s.withCall c v).NoneDue := by
  rintro i ⟨w, instant, hw, hend, hdue⟩
  obtain ⟨hholds', hends⟩ := lingerEnd?_eq_some_iff.mp hend
  rw [getElem?_withCall] at hw
  split at hw
  · obtain rfl := Option.some.inj hw
    obtain ⟨announced, hannounced⟩ := hends
    rw [hrelease] at hannounced
    cases hannounced
  · have hbefore : s.controller.holds w.ticket = true := (hholds i w hw).trans hholds'
    exact hnone i ⟨w, instant, hw, lingerEnd?_eq_some_iff.mpr ⟨hbefore, hends⟩, hdue⟩

theorem quiet_withCall (hrest : s.AtRest) (hnone : s.NoneDue) (hphase : v.phase ≠ .pending)
    (hrelease : v.release? = none)
    (hverdict : ∀ (i : Nat) (w : Wait), s.waits[i]? = some w → w.phase = .pending →
      c.verdict w.ticket (s.isCancelled w) = s.controller.verdict w.ticket (s.isCancelled w))
    (hholds : ∀ (i : Nat) (w : Wait), s.waits[i]? = some w →
      c.holds w.ticket = s.controller.holds w.ticket) :
    (s.withCall c v).AtRest ∧ (s.withCall c v).NoneDue := by
  constructor
  · intro i w hw hpending
    rw [getElem?_withCall] at hw
    split at hw
    · obtain rfl := Option.some.inj hw
      exact absurd hpending hphase
    · have hstays := hrest i w hw hpending
      rw [Stays, ← hverdict i w hw hpending] at hstays
      exact hstays
  · refine noneDue_withCall hnone hrelease fun i w hw => ?_
    exact (hholds i w hw).symm

/-- A call that is over and has left nothing behind. -/
theorem quiet_withCall_self (hrest : s.AtRest) (hnone : s.NoneDue) (hphase : v.phase ≠ .pending)
    (hrelease : v.release? = none) :
    (s.withCall s.controller v).AtRest ∧ (s.withCall s.controller v).NoneDue :=
  quiet_withCall hrest hnone hphase hrelease (fun _ _ _ _ => rfl) fun _ _ _ => rfl

/-! ## The newcomer's evaluation -/

section Register

variable (hl : l.Accounts s) (hid : w.ticket.id = s.waits.size) (hpending : w.phase = .pending)
include hl hid

/-- To leave the room undoes the registration. -/
theorem withdraw_register :
    (s.controller.apply (.register w.ticket)).withdraw w.ticket = s.controller := by
  have hseats := hl.sound.waiting
  rw [hl.controller] at hseats
  have hback := hseats.leave_enter (t := w.ticket) fun u hu => by
    refine hl.ne_of_mem_tickets hid u (hl.sound.known u ?_)
    rw [hu]
    decide
  simp only [Controller.apply, Controller.withdraw, hback]

theorem grant_register :
    (s.controller.apply (.register w.ticket)).grant w.ticket = s.controller.share w.ticket := by
  have hback := congrArg Controller.waiting (withdraw_register hl hid)
  simp only [Controller.withdraw] at hback
  simp only [Controller.grant, hback]
  rfl

theorem holds_share_register {i : Nat} {u : Wait} (hu : s.waits[i]? = some u) :
    (s.controller.share w.ticket).holds u.ticket = s.controller.holds u.ticket :=
  Controller.holds_share (hl.ne_of_mem_tickets hid _ (hl.mem_tickets hu))

omit hid in
/-- A newcomer is let in onto an entry that somebody holds, or into a session where nobody waits. -/
theorem verdict_share_of_granted (hrest : s.AtRest) {cancelled : Bool}
    (hgranted : (s.controller.apply (.register w.ticket)).verdict w.ticket cancelled = .granted)
    {i : Nat} {u : Wait} (hu : s.waits[i]? = some u) (hwaits : u.phase = .pending)
    (looked : Bool) :
    (s.controller.share w.ticket).verdict u.ticket looked =
      s.controller.verdict u.ticket looked := by
  rcases Controller.verdict_eq_granted_iff.mp hgranted with hshared | ⟨hroom, -⟩
  · exact Controller.verdict_share hshared
  · have hfull : s.controller.hasRoom = false :=
      Controller.hasRoom_eq_false_iff.mpr (hrest.isFull hl hu hwaits)
    exact absurd (hroom.symm.trans hfull) Bool.true_eq_false.mp

/-- The newcomer is let in, and nothing is left of its registration. -/
theorem conclude_register_of_granted {cancelled : Bool}
    (hgranted : (s.controller.apply (.register w.ticket)).verdict w.ticket cancelled = .granted) :
    (s.register w).conclude w cancelled =
      (s.withCall (s.controller.share w.ticket) { w with phase := .admitted true none },
        [.admitted w.ticket s.clock (s.waited w)]) := by
  have hgranted' : (s.register w).controller.verdict w.ticket cancelled = .granted := hgranted
  simp only [conclude, hgranted', Controller.apply_evaluate_of_granted hgranted']
  rw [← grant_register hl hid, ← withCall_setPhase hid]
  rfl

/-- The newcomer is refused. If it is cancelled, nothing is left of its registration; if not, it
waits. -/
theorem conclude_register_of_refuses {cancelled : Bool}
    (hrefuses : (s.controller.apply (.register w.ticket)).Refuses w.ticket) :
    (s.register w).conclude w cancelled =
      if cancelled then
        (s.withCall s.controller { w with phase := .cancelled },
          [.cancelled w.ticket s.clock (s.waited w)])
      else (s.register w, []) := by
  have hverdict : (s.register w).controller.verdict w.ticket cancelled =
      if cancelled then .withdrawn else .blocked := Controller.verdict_of_refuses hrefuses
  cases cancelled with
  | false => exact conclude_of_stays (Or.inl hverdict)
  | true =>
    rw [if_pos rfl] at hverdict
    simp only [conclude, hverdict, Controller.apply_evaluate_of_withdrawn hverdict, if_true]
    rw [← withCall_setPhase hid, ← withdraw_register hl hid]
    rfl

include hpending

/-- Whoever waits is refused still when somebody else has come to wait. -/
theorem refuses_register (hrest : s.AtRest) {i : Nat} {u : Wait} (hu : s.waits[i]? = some u)
    (hwaits : u.phase = .pending) :
    (s.controller.apply (.register w.ticket)).Refuses u.ticket := by
  have hfull : s.controller.hasRoom = false :=
    Controller.hasRoom_eq_false_iff.mpr (hrest.isFull hl hu hwaits)
  have hl' := hl.register hid hpending
  have hu' : (s.register w).waits[i]? = some u := getElem?_of_push (w := w) rfl hu
  have hseat := (hl'.place_eq_waiting_iff hu').mpr hwaits
  obtain ⟨top, htop⟩ := hl'.sound.waiting.exists_topPriority hseat
  rw [hl'.controller] at htop
  refine ⟨(hrest.refuses hl hu hwaits).2.1, top, htop, fun hroom => ?_⟩
  exact absurd (hroom.symm.trans hfull) Bool.true_eq_false.mp

/-- The newcomer that is refused goes on waiting, unless its own deadline has passed already; then
it is withdrawn, and the room is as if it had not come. -/
theorem settle_register (hrest : s.AtRest) (hnone : s.NoneDue)
    (hrefuses : (s.controller.apply (.register w.ticket)).Refuses w.ticket) :
    (s.register w).settle = (s.register w).conclude w (s.isCancelled w) := by
  have hnew : (s.register w).waits[s.waits.size]? = some w := by simp [register]
  have hids : (s.register w).pendingIds = s.pendingIds ++ [s.waits.size] :=
    pendingIds_push hpending rfl
  have hnone' : (s.register w).NoneDue :=
    noneDue_withCall hnone (by simp [Wait.release?, hpending]) fun _ _ _ => rfl
  -- The newcomer is the last to be looked at, and none of those before it is let in.
  have hothers : ∀ id ∈ s.pendingIds, (s.register w).evaluate id = (s.register w, []) := by
    intro id hmem
    obtain ⟨u, hu, hwaits⟩ := mem_pendingIds_iff.mp hmem
    have hu' : (s.register w).waits[id]? = some u := getElem?_of_push (w := w) rfl hu
    have hblocked : (s.register w).Stays u := Or.inl (Controller.verdict_eq_blocked_iff.mpr
      ⟨(hrest.refuses hl hu hwaits).1, refuses_register hl hid hpending hrest hu hwaits⟩)
    simp only [evaluate, hu', Wait.isPending_iff.mpr hwaits, if_true]
    exact conclude_of_stays hblocked
  have hpass : (s.register w).evaluateAll (s.register w).pendingIds =
      (s.register w).conclude w (s.isCancelled w) := by
    rw [hids, evaluateAll, forEach_append_of_self hothers]
    simp only [forEach, evaluate, hnew, Wait.isPending_iff.mpr hpending, if_true, List.append_nil]
    rfl
  simp only [settle, settleRounds, hnone'.expireDue_eq, hpass]
  rw [conclude_register_of_refuses hl hid hrefuses]
  cases s.isCancelled w with
  | false => rfl
  | true =>
    obtain ⟨hrest₂, hnone₂⟩ :=
      quiet_withCall_self (v := { w with phase := .cancelled }) hrest hnone (by simp) rfl
    simp only [if_true, hrest₂.settleRounds_eq hnone₂]
    rfl

/-- **What a call comes to** in a session at rest: it is settled at once, or it waits, and that is
all. -/
theorem settle_start (hrest : s.AtRest) (hnone : s.NoneDue) :
    (∃ o c, (s.start w).1.settle.1 = s.withCall c { w with phase := Outcome.phase o } ∧
        ((s.start w).2 ++ (s.start w).1.settle.2).filterMap Event.settled? =
          [⟨s.waits.size, o, s.clock⟩]) ∨
      ((s.start w).1.settle.1 = s.register w ∧
        ((s.start w).2 ++ (s.start w).1.settle.2).filterMap Event.settled? = []) := by
  have hblocked : ∀ cancelled, ((s.register w).blockedEvents w cancelled).filterMap Event.settled? =
      [] := by
    intro cancelled
    unfold blockedEvents
    split <;> rfl
  simp only [start, List.filterMap_append, hblocked, List.nil_append]
  generalize s.isTokenCancelled w.token = cancelled
  by_cases hgranted :
      (s.controller.apply (.register w.ticket)).verdict w.ticket cancelled = .granted
  · obtain ⟨hrest₁, hnone₁⟩ :=
      quiet_withCall (v := { w with phase := .admitted true none }) hrest hnone (by simp) rfl
        (fun i u hu hwaits => verdict_share_of_granted hl hrest hgranted hu hwaits _)
        fun i u hu => holds_share_register hl hid hu
    refine Or.inl ⟨.admitted, s.controller.share w.ticket, ?_, ?_⟩
    · rw [conclude_register_of_granted hl hid hgranted, hrest₁.settle_eq hnone₁]
      rfl
    · rw [conclude_register_of_granted hl hid hgranted, hrest₁.settle_eq hnone₁, ← hid]
      rfl
  · have hnew : (s.register w).waits[s.waits.size]? = some w := by simp [register]
    have hrefuses : (s.controller.apply (.register w.ticket)).Refuses w.ticket :=
      Controller.refuses_iff.mpr ⟨hgranted, fun horphaned =>
        verdict_ne_orphaned (hl.register hid hpending) hnew hpending cancelled horphaned⟩
    obtain ⟨hrest₁, hnone₁⟩ :=
      quiet_withCall_self (v := { w with phase := .cancelled }) hrest hnone (by simp) rfl
    have hsettle := settle_register hl hid hpending hrest hnone hrefuses
    rw [conclude_register_of_refuses hl hid hrefuses] at hsettle ⊢
    cases cancelled with
    | true =>
      refine Or.inl ⟨.cancelled, s.controller, ?_, ?_⟩
      · simp only [if_true, hrest₁.settle_eq hnone₁]
        rfl
      · simp only [if_true, hrest₁.settle_eq hnone₁, ← hid]
        rfl
    | false =>
      simp only [Bool.false_eq_true, if_false, hsettle, List.filterMap_nil, List.nil_append]
      cases s.isCancelled w with
      | true => exact Or.inl ⟨.cancelled, s.controller, rfl, by rw [← hid]; rfl⟩
      | false => exact Or.inr ⟨rfl, rfl⟩

/-- **Giving up undoes a call** that had to wait. -/
theorem step_abandon_register (hrest : s.AtRest) (hnone : s.NoneDue) :
    ((s.register w).step (.abandon s.waits.size)).1 =
        s.withCall s.controller { w with phase := .abandoned } ∧
      ((s.register w).step (.abandon s.waits.size)).2.reply = .nothing ∧
      ((s.register w).step (.abandon s.waits.size)).2.events = [.abandoned w.ticket] := by
  have hnew : (s.register w).pending? s.waits.size = some w := by
    simp [register, pending?, Wait.isPending, hpending]
  have hperform : (s.register w).perform (.abandon s.waits.size) =
      (s.withCall s.controller { w with phase := .abandoned },
        .nothing, [.abandoned w.ticket]) := by
    rw [← withCall_setPhase hid, ← withdraw_register hl hid]
    simp only [perform, hnew]
    rfl
  obtain ⟨hrest₁, hnone₁⟩ :=
    quiet_withCall_self (v := { w with phase := .abandoned }) hrest hnone (by simp) rfl
  exact step_of_perform hperform hrest₁ hnone₁

end Register

theorem step_wait (s : Session) (e : Entry) (reason : String) (p : Priority) (token : String)
    (D : Option Span) :
    (s.step (.wait e reason p token D)).1 =
        (s.start (s.newWait e reason p token D)).1.settle.1 ∧
      (s.step (.wait e reason p token D)).2.reply = .started s.waits.size ∧
      (s.step (.wait e reason p token D)).2.settled =
        ((s.start (s.newWait e reason p token D)).2 ++
          (s.start (s.newWait e reason p token D)).1.settle.2).filterMap Event.settled? := by
  simp only [step, perform, Answer.settled]
  exact ⟨trivial, rfl, trivial⟩

/-- What a call that has to wait leaves as it was, and what is left of it once it has given up. -/
theorem disturbs_nobody_register (hl : l.Accounts s) (hid : w.ticket.id = s.waits.size)
    (hpending : w.phase = .pending) (hrest : s.AtRest) (hnone : s.NoneDue) :
    (s.register w).waits[s.waits.size]? = some w ∧
      (s.register w).controller.capacity = s.controller.capacity ∧
      (s.register w).controller.policy = s.controller.policy ∧
      (s.register w).controller.occupancy = s.controller.occupancy ∧
      (∀ i, i ≠ s.waits.size →
        s.controller.waiting.SameSeats (s.register w).controller.waiting i) ∧
      ((s.register w).step (.abandon s.waits.size)).2.reply = .nothing ∧
      ((s.register w).step (.abandon s.waits.size)).2.settled = [] ∧
      ((s.register w).step (.abandon s.waits.size)).1.controller = s.controller ∧
      ∀ i, i ≠ s.waits.size →
        ((s.register w).step (.abandon s.waits.size)).1.waits[i]? = s.waits[i]? := by
  obtain ⟨hback, hreply, hevents⟩ := step_abandon_register hl hid hpending hrest hnone
  refine ⟨by simp [register], rfl, rfl, rfl, fun i hi => ?_, hreply, ?_, ?_, fun i hi => ?_⟩
  · exact s.controller.waiting.sameSeats_enter (hid ▸ hi)
  · rw [Answer.settled, hevents]
    rfl
  · rw [hback]
    rfl
  · rw [hback, getElem?_withCall, if_neg hi]

/-- **A call disturbs nobody.** After every run, whatever the entry, reason, priority, token and
deadline of a further call: all other calls stay as they are, and either the call is settled at once
and is the only one that the answer lists, or it waits and the answer lists nobody. If it waits,
capacity, policy and the table of entries are as before, all other numbers stand in the waiting room
where they stood, and if the next step gives the call up, nobody is settled by that and the
controller is the very one that it was before the call. -/
theorem call_disturbs_nobody (capacity : Capacity) (linger : Span) (steps : List Step) (e : Entry)
    (reason : String) (p : Priority) (token : String) (D : Option Span) :
    let s := ((new capacity linger).run steps).1
    let n := s.waits.size
    let w := s.newWait e reason p token D
    let r := s.step (.wait e reason p token D)
    r.2.reply = .started n ∧ (∀ i, i ≠ n → r.1.waits[i]? = s.waits[i]?) ∧
      ((∃ o, r.2.settled = [⟨n, o, s.clock⟩] ∧
          r.1.waits[n]? = some { w with phase := Outcome.phase o }) ∨
        (r.2.settled = [] ∧ r.1.waits[n]? = some w ∧
          r.1.controller.capacity = s.controller.capacity ∧
          r.1.controller.policy = s.controller.policy ∧
          r.1.controller.occupancy = s.controller.occupancy ∧
          (∀ i, i ≠ n → s.controller.waiting.SameSeats r.1.controller.waiting i) ∧
          let back := r.1.step (.abandon n)
          back.2.reply = .nothing ∧ back.2.settled = [] ∧ back.1.controller = s.controller ∧
            ∀ i, i ≠ n → back.1.waits[i]? = s.waits[i]?)) := by
  intro s n w r
  obtain ⟨l, hl⟩ : s.Orderly := (orderly_new capacity linger).run steps
  have hrest : s.AtRest := (atRest_new capacity linger).run (orderly_new capacity linger) steps
  have hnone : s.NoneDue := noneDue_run steps
  -- Nothing more is needed of the run.
  clear_value s
  have hid : w.ticket.id = n := rfl
  have hpending : w.phase = .pending := rfl
  obtain ⟨hfirst, hreply, hsecond⟩ : r.1 = (s.start w).1.settle.1 ∧ r.2.reply = .started n ∧
      r.2.settled = ((s.start w).2 ++ (s.start w).1.settle.2).filterMap Event.settled? :=
    s.step_wait e reason p token D
  refine ⟨hreply, ?_⟩
  clear_value w r
  have hothers : ∀ c v i, i ≠ n → (s.withCall c v).waits[i]? = s.waits[i]? := by
    intro c v i hi
    rw [getElem?_withCall, if_neg hi]
  rcases settle_start hl hid hpending hrest hnone with ⟨o, c, hend, hsettled⟩ | ⟨hend, hsettled⟩
  · rw [hfirst, hsecond, hend, hsettled]
    refine ⟨hothers c _, Or.inl ⟨o, rfl, ?_⟩⟩
    rw [getElem?_withCall, if_pos rfl]
  · rw [hfirst, hsecond, hend, hsettled]
    have hwaits := disturbs_nobody_register hl hid hpending hrest hnone
    refine ⟨hothers _ w, Or.inr ⟨rfl, ?_⟩⟩
    subst n
    exact hwaits

end Session

end Admission
