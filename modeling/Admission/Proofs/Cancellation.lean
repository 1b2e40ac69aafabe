import Admission.Proofs.History

/-!
# Why and when a call is cancelled

A call is cancelled by its token's name or by its own deadline, and by nothing else: the deadlines
of other calls do not touch it, also if they go by the same name. And cancelled is not yet settled
as cancelled: a call that is evaluated when there is a slot for it is let in all the same.

When a deadline alone cancels a call, the moment is exact. The reason is what is known of the clock:

> it does not go past the deadline of a call that waits.

It stops at every deadline that lies ahead, counted in full, and moves on only when nobody who waits
is cancelled. A timer runs thirty years at most, however; so a longer deadline has passed at thirty
years, which is before the instant that it names.
-/

set_option autoImplicit false

namespace Admission.Session

variable {s s₁ s₂ : Session} {what : Step} {told events : List Event} {capacity : Capacity}
  {linger : Span} {steps : List Step}

/-! ## Tokens -/

theorem isTokenCancelled_iff {token : String} :
    s.isTokenCancelled token = true ↔ token ∈ s.cancelledTokens := List.contains_iff_mem

theorem Request.mem_cancelledTokens_iff (h : Request s what s₁ told) (token : String) :
    token ∈ s₁.cancelledTokens ↔ token ∈ s.cancelledTokens ∨ what = .cancel token := by
  by_cases hwhat : ∃ t, what = .cancel t
  · obtain ⟨t, rfl⟩ := hwhat
    have htokens : s₁.cancelledTokens = t :: s.cancelledTokens := by
      cases h with
      | cancel token => rfl
      | release hhandle _ _ _ _ => cases hhandle
      | letGo hhandle _ _ _ => cases hhandle
      | nothing _ hcancel _ _ _ => exact absurd rfl (hcancel t)
    rw [htokens, List.mem_cons, Step.cancel.injEq, or_comm, eq_comm]
  · have hne : ∀ t, what ≠ .cancel t := fun t ht => hwhat ⟨t, ht⟩
    rw [h.cancelledTokens_eq hne]
    simp [hne token]

/-- A token is cancelled once a step has cancelled it by name. -/
theorem mem_cancelledTokens_run_iff (token : String) :
    token ∈ ((new capacity linger).run steps).1.cancelledTokens ↔ Step.cancel token ∈ steps := by
  refine run_induction (P := fun steps _ s => token ∈ s.cancelledTokens ↔ Step.cancel token ∈ steps)
    (by simp [new]) ?_ steps
  intro steps what r hs ih
  obtain ⟨s₁, told, later, hrequest, hturns, -⟩ := turns_step hs what
  rw [(hturns.follows (hrequest.replays.orderly hs)).cancelledTokens,
    hrequest.mem_cancelledTokens_iff, ih, List.mem_append, List.mem_singleton, eq_comm]

/-! ## Deadlines -/

theorem isOverdue_iff {w : Wait} {now : Nat} :
    w.isOverdue now = true ↔
      ∃ D, w.deadline = some D ∧ timerEnd (instantOfMillis w.startedAt) D ≤ now := by
  unfold Wait.isOverdue Wait.deadlineEnd?
  cases w.deadline with
  | none => simp
  | some D => simp

theorem isCancelled_iff {w : Wait} :
    s.isCancelled w = true ↔ w.token ∈ s.cancelledTokens ∨
      ∃ D, w.deadline = some D ∧ timerEnd (instantOfMillis w.startedAt) D ≤ s.now := by
  rw [isCancelled, Bool.or_eq_true, isTokenCancelled_iff, isOverdue_iff]

theorem announcedDeadline?_eq_some_iff {w : Wait} {instant : Nat} :
    w.announcedDeadline? = some instant ↔ ∃ D, w.deadline = some D ∧
      instantOfMillis w.startedAt + D.nanos < instantBound ∧
      instant = instantOfMillis w.startedAt + D.nanos := by
  simp only [Wait.announcedDeadline?, Option.bind_eq_some_iff, instantAfter_eq_some_iff]

/-- The clock is not past the deadline of a call that waits. -/
def Punctual (s : Session) : Prop :=
  ∀ (i : Nat) (w : Wait) (instant : Nat), s.waits[i]? = some w → w.phase = .pending →
    w.announcedDeadline? = some instant → s.clock ≤ millisOf instant

/-- The deadline of a call that is not cancelled lies ahead. -/
theorem now_lt_of_not_cancelled {w : Wait} {instant : Nat} (hw : s.isCancelled w = false)
    (h : w.announcedDeadline? = some instant) : s.now < instant := by
  obtain ⟨D, hD, -, rfl⟩ := announcedDeadline?_eq_some_iff.mp h
  by_contra hpassed
  have hcancelled : s.isCancelled w = true :=
    isCancelled_iff.mpr (Or.inr ⟨D, hD, (timerEnd_le _ D).trans (not_lt.mp hpassed)⟩)
  rw [hw] at hcancelled
  cases hcancelled

theorem punctual_new (capacity : Capacity) (linger : Span) : (new capacity linger).Punctual := by
  intro i w instant hw
  simp [new] at hw

theorem invariant_punctual : Invariant Punctual where
  request h hs hp i w instant hw hpending hend := by
    rw [h.clock_eq]
    rcases h.pending_before_or_new hs hw hpending with hv | ⟨e, reason, p, token, D, -, -, rfl⟩
    · exact hp i w instant hv hpending hend
    · -- A new call has its whole deadline before it.
      obtain ⟨D', -, -, rfl⟩ := announcedDeadline?_eq_some_iff.mp hend
      exact le_millisOf_add _ _
  turn h hs hp i w instant hw hpending hend := by
    obtain ⟨v, hv, hbecomes⟩ := (h.follows hs).exists_before hw
    obtain rfl := hbecomes.eq_of_pending hpending
    rcases h.clock_cases with hclock | ⟨hrest, -, hstops⟩
    · exact hclock.trans_le (hp i w instant hv hpending hend)
    · -- The clock stops at the deadline, since it lies ahead.
      have hahead := now_lt_of_not_cancelled (hrest i w hv hpending) hend
      exact hstops instant (mem_ends_iff.mpr ⟨i, w, hv, Or.inl hend⟩) hahead

/-! ## The moment of a cancellation -/

/-- In the course of the step the call is evaluated in the session `m`, with its token cancelled or
not. -/
def Evaluates (s : Session) (what : Step) (m : Session) (w : Wait) (cancelled : Bool) : Prop :=
  s.Passes what m (m.conclude w cancelled).1 (m.conclude w cancelled).2

/-- The call of the run is settled as cancelled by one more step, at a moment when it is cancelled
and there is no slot for it. -/
structure Withdraws (s₀ : Session) (steps : List Step) (what : Step) (m : Session) (w : Wait) :
    Prop where
  evaluates : (s₀.run steps).1.Evaluates what m w true
  /-- It is the call that a step made, with the token and the deadline that the step named. -/
  called : Called s₀ (steps ++ [what]) w.ticket.id w
  waits : m.waits[w.ticket.id]? = some w
  pending : w.phase = .pending
  free : m.controller.isOccupied w.ticket.entry = false
  noSlot : ¬ (m.controller.hasRoom = true ∧
    m.controller.waiting.topPriority = some w.ticket.priority)
  /-- A step has named its token, or the timer of its own deadline has ended. -/
  cause : Step.cancel w.token ∈ steps ++ [what] ∨
    ∃ D, w.deadline = some D ∧ timerEnd (instantOfMillis w.startedAt) D ≤ m.now
  /-- If only its own deadline cancels it, and a timer can run so long, then it happens at the first
  whole millisecond that is not before the end of the deadline. -/
  exact_moment : Step.cancel w.token ∉ steps ++ [what] → ∀ D, w.deadline = some D →
    D.nanos ≤ longestTimer.nanos → instantOfMillis w.startedAt + D.nanos ≤ lastTimerEnd →
    m.clock = millisOf (instantOfMillis w.startedAt + D.nanos)

theorem Evaluates.settled {m : Session} {w : Wait} {cancelled : Bool} {e : Settled}
    (h : s.Evaluates what m w cancelled)
    (he : e ∈ (m.conclude w cancelled).2.filterMap Event.settled?) :
    e ∈ (s.step what).2.settled := by
  obtain ⟨event, hevent, hsettles⟩ := List.mem_filterMap.mp he
  exact List.mem_filterMap.mpr ⟨event, h.mem_events hevent, hsettles⟩

theorem Turn.withdraws_or (h : Turn s s₁ events) {e : Settled}
    (he : e ∈ events.filterMap Event.settled?) (hcancelled : e.outcome = .cancelled) :
    ∃ (i : Nat) (w : Wait), s.waits[i]? = some w ∧ w.phase = .pending ∧
      s.isCancelled w = true ∧ s.controller.Refuses w.ticket ∧
      s₁ = (s.conclude w true).1 ∧ events = (s.conclude w true).2 ∧
      e = ⟨w.ticket.id, .cancelled, s.clock⟩ := by
  cases h with
  | expire _ _ _ => cases he
  | blocked t => cases he
  | tick _ _ _ _ => cases he
  | @evaluate i w cancelled hw hpending hflag =>
    cases hv : s.controller.verdict w.ticket cancelled with
    | granted =>
      simp only [conclude, hv, List.filterMap_cons, Event.settled?, List.filterMap_nil,
        List.mem_singleton] at he
      rw [he] at hcancelled
      cases hcancelled
    | blocked =>
      rw [conclude_of_stays (Or.inl hv)] at he
      cases he
    | orphaned =>
      rw [conclude_of_stays (Or.inr hv)] at he
      cases he
    | withdrawn =>
      obtain ⟨rfl, hrefuses⟩ := Controller.verdict_eq_withdrawn_iff.mp hv
      refine ⟨i, w, hw, hpending, ?_, hrefuses, rfl, rfl, ?_⟩
      · rcases hflag with hflag | hflag
        · exact hflag.symm
        · rw [isCancelled, ← hflag, Bool.true_or]
      · simpa [conclude, hv, Event.settled?] using he

/-- A call whose token is cancelled is settled by its first evaluation. -/
theorem settled_of_evaluated_cancelled (hs : s.Orderly) {i : Nat} {w : Wait}
    (hw : s.waits[i]? = some w) (hpending : w.phase = .pending) :
    ∃ o, (⟨w.ticket.id, o, s.clock⟩ : Settled) ∈
      (s.conclude w true).2.filterMap Event.settled? := by
  obtain ⟨l, hl⟩ := hs
  cases hv : s.controller.verdict w.ticket true with
  | granted => exact ⟨.admitted, by simp [conclude, hv, Event.settled?]⟩
  | withdrawn => exact ⟨.cancelled, by simp [conclude, hv, Event.settled?]⟩
  | blocked => cases (Controller.verdict_eq_blocked_iff.mp hv).1
  | orphaned => exact absurd hv (verdict_ne_orphaned hl hw hpending true)

/-- A call under a token that was cancelled before is evaluated as cancelled when it is made. -/
theorem evaluates_of_cancelled_before (e : Entry) (reason : String) (p : Priority) {token : String}
    (D : Option Span) (hcancelled : s.isTokenCancelled token = true) :
    let w := s.newWait e reason p token D
    s.Evaluates (.wait e reason p token D) (s.register w) w true := by
  intro w
  have hnone : (s.register w).blockedEvents w true = [] := by
    unfold blockedEvents
    split
    case h_1 hv => cases (Controller.verdict_eq_blocked_iff.mp hv).1
    case h_2 => rfl
  have hstart : s.start w = (s.register w).conclude w true := by
    have htoken : s.isTokenCancelled w.token = true := hcancelled
    simp only [start, htoken, hnone, List.nil_append]
  have hperform : (s.perform (.wait e reason p token D)).1 =
      ((s.register w).conclude w true).1 := by
    rw [← hstart]
    rfl
  have hevents : (s.perform (.wait e reason p token D)).2.2 =
      ((s.register w).conclude w true).2 := by
    rw [← hstart]
    rfl
  refine ⟨s.register w, [], [], ((s.register w).conclude w true).1.settle.2,
    .call e reason p token D, .refl _, ?_, ?_⟩
  · simp only [step, hperform]
    exact turns_settle _
  · simp only [step, hperform, hevents, List.nil_append]

theorem exists_withdraws {s₀ : Session} (hrun : (s₀.run steps).1 = s) (hs : s.Orderly)
    (hpunctual : s.Punctual)
    (htokens : ∀ token, token ∈ (s.step what).1.cancelledTokens ↔
      Step.cancel token ∈ steps ++ [what])
    (hcalled : ∀ (i : Nat) (w : Wait), (s.step what).1.waits[i]? = some w →
      Called s₀ (steps ++ [what]) i w)
    {e : Settled} (he : e ∈ (s.step what).2.settled) (hcancelled : e.outcome = .cancelled) :
    ∃ m w, Withdraws s₀ steps what m w ∧ e = ⟨w.ticket.id, .cancelled, m.clock⟩ := by
  obtain ⟨event, hevent, hsettles⟩ := List.mem_filterMap.mp he
  rcases mem_events_step hs hevent with ⟨s₁, told, hrequest, htold⟩ |
    ⟨m, m', now, hpasses, hturn, hnow⟩
  · have hsome := List.mem_filterMap.mpr ⟨event, htold, hsettles⟩
    rw [hrequest.settles_nobody] at hsome
    cases hsome
  · -- A turn has reported it, which is the evaluation of the call in the session `m`.
    obtain ⟨hm, hpunctual_m⟩ := invariant_punctual.passes hpasses hs hpunctual
    obtain ⟨i, w, hw, hpending, hwc, ⟨hfree, top, htop, hroom⟩, rfl, rfl, rfl⟩ :=
      hturn.withdraws_or (List.mem_filterMap.mpr ⟨event, hnow, hsettles⟩) hcancelled
    have hfollows := hpasses.follows hturn hs
    obtain rfl := hm.id_eq hw
    obtain ⟨w', hw', hbecomes⟩ := hfollows.waits w.ticket.id w hw
    have hcause := isCancelled_iff.mp hwc
    rw [← hfollows.cancelledTokens, htokens] at hcause
    have hcall := (hcalled _ w' hw').sameCall hbecomes.sameCall.symm
    refine ⟨m, w, ⟨?_, hcall, hw, hpending, hfree, ?_, hcause, ?_⟩, rfl⟩
    · rw [hrun]
      exact hpasses
    · rintro ⟨hhas, htop'⟩
      exact hroom hhas (Option.some.inj (htop'.symm.trans htop))
    · -- The deadline has passed, but the clock has not gone past it.
      intro hnot D hD hlength hend
      obtain ⟨D', hD', hpassed⟩ := hcause.resolve_left hnot
      obtain rfl := Option.some.inj (hD.symm.trans hD')
      rw [timerEnd_eq hlength hend] at hpassed
      have hannounced := announcedDeadline?_eq_some_iff.mpr
        ⟨D, hD, hend.trans_lt lastTimerEnd_lt, rfl⟩
      exact (hpunctual_m _ w _ hw hpending hannounced).antisymm (millisOf_le_iff.mpr hpassed)

/-- A call under a token that was cancelled before is settled with the step that makes it. -/
theorem settled_of_cancelled_before (hs : s.Orderly) (e : Entry) (reason : String) (p : Priority)
    {token : String} (D : Option Span) (hcancelled : s.isTokenCancelled token = true) :
    ∃ o, ⟨s.waits.size, o, s.clock⟩ ∈ (s.step (.wait e reason p token D)).2.settled := by
  have hregister : (s.register (s.newWait e reason p token D)).Orderly :=
    (Request.call e reason p token D).replays.orderly hs
  have hw : (s.register (s.newWait e reason p token D)).waits[s.waits.size]? =
      some (s.newWait e reason p token D) := by simp [register]
  obtain ⟨o, ho⟩ := settled_of_evaluated_cancelled hregister hw rfl
  exact ⟨o, (evaluates_of_cancelled_before e reason p D hcancelled).settled ho⟩

theorem not_cancelled_after_step (hs : s.Orderly) (what : Step) {i : Nat} {w : Wait}
    (hw : (s.step what).1.waits[i]? = some w) (hpending : w.phase = .pending) :
    w.token ∉ (s.step what).1.cancelledTokens ∧
      ∀ D, w.deadline = some D →
        (s.step what).1.now < timerEnd (instantOfMillis w.startedAt) D := by
  obtain ⟨l, hl⟩ : (s.step what).1.Orderly := (replays_step s what).orderly hs
  have hnot := ((atRest_step hs what).refuses hl hw hpending).1
  rw [← Bool.not_eq_true, isCancelled_iff, not_or] at hnot
  refine ⟨hnot.1, fun D hD => ?_⟩
  by_contra hpassed
  exact hnot.2 ⟨D, hD, not_lt.mp hpassed⟩

/-- **Cancellation is exact.** Whatever run came before: a step settles a call as cancelled only at
a moment when the call is cancelled, by its token's name or by the timer of its own deadline, and
when its entry is free and there is no slot for it; if the deadline alone cancels it, the moment is
the first whole millisecond at its end. After the step nobody waits who is cancelled. And a call
under a token that was cancelled before is evaluated as cancelled from the beginning, and settled
with the step that makes it. -/
theorem cancellation_is_exact (capacity : Capacity) (linger : Span) (steps : List Step)
    (what : Step) :
    let s₀ := new capacity linger
    let s := (s₀.run steps).1
    (∀ e ∈ (s.step what).2.settled, e.outcome = .cancelled →
        ∃ m w, Withdraws s₀ steps what m w ∧ e = ⟨w.ticket.id, .cancelled, m.clock⟩) ∧
      (∀ (i : Nat) (w : Wait), (s.step what).1.waits[i]? = some w → w.phase = .pending →
        Step.cancel w.token ∉ steps ++ [what] ∧
          ∀ D, w.deadline = some D →
            (s.step what).1.now < timerEnd (instantOfMillis w.startedAt) D) ∧
      ∀ e reason p token D, what = .wait e reason p token D → Step.cancel token ∈ steps →
        s.Evaluates what (s.register (s.newWait e reason p token D))
            (s.newWait e reason p token D) true ∧
          ∃ o, ⟨Step.calls steps, o, s.clock⟩ ∈ (s.step what).2.settled := by
  intro s₀ s
  have hs : s.Orderly := (orderly_new capacity linger).run steps
  have hlast : (s₀.run (steps ++ [what])).1 = (s.step what).1 := by rw [run_concat]
  have htokens : ∀ token, token ∈ (s.step what).1.cancelledTokens ↔
      Step.cancel token ∈ steps ++ [what] := by
    intro token
    rw [← hlast]
    exact mem_cancelledTokens_run_iff token
  have hcalled : ∀ (i : Nat) (w : Wait), (s.step what).1.waits[i]? = some w →
      Called s₀ (steps ++ [what]) i w := by
    intro i w hw
    rw [← hlast] at hw
    exact called_of_run hw
  refine ⟨?_, ?_, ?_⟩
  · intro e he hcancelled
    have hpunctual := invariant_punctual.run (punctual_new capacity linger) steps
    exact exists_withdraws (s := s) rfl hs hpunctual htokens hcalled he hcancelled
  · intro i w hw hpending
    rw [← htokens]
    exact not_cancelled_after_step hs what hw hpending
  · rintro e reason p token D rfl htoken
    have hcancelled : s.isTokenCancelled token = true :=
      isTokenCancelled_iff.mpr ((mem_cancelledTokens_run_iff token).mpr htoken)
    have hnumber : s.waits.size = Step.calls steps := size_waits_run steps
    rw [← hnumber]
    exact ⟨evaluates_of_cancelled_before e reason p D hcancelled,
      settled_of_cancelled_before hs e reason p D hcancelled⟩

/-- A deadline between two milliseconds cancels at the second of them. -/
example :
    let a : Entry := ⟨"udp", "l", "a"⟩
    let b : Entry := ⟨"udp", "l", "b"⟩
    let steps := [.wait a "" .standard "root" none, .wait b "" .standard "root" (some ⟨2500001⟩),
      .advance 10]
    ((new (.limited 1) .zero).run steps).2.flatMap Answer.settled =
      [⟨0, .admitted, 0⟩, ⟨1, .cancelled, 3⟩] := by decide_cbv

/-- A deadline of forty years ends a call after thirty: nobody cancelled the call by name, and its
deadline lies ten years ahead. -/
theorem cancelled_before_deadline :
    let a : Entry := ⟨"udp", "l", "a"⟩
    let b : Entry := ⟨"udp", "l", "b"⟩
    let D : Span := .ofWholeSeconds (40 * 365 * 86400)
    let steps := [.wait a "" .standard "root" none, .wait b "" .standard "root" (some D),
      .advance (30 * 365 * 86400 * 1000)]
    let r := (new (.limited 1) .zero).run steps
    (∀ token, Step.cancel token ∉ steps) ∧
      r.1.waits[1]? = some ⟨⟨1, b, "", .standard⟩, "root", 0, some D, .cancelled⟩ ∧
      r.2.flatMap Answer.settled = [⟨0, .admitted, 0⟩, ⟨1, .cancelled, 946080000000⟩] ∧
      instantOfMillis 946080000000 < instantOfMillis 0 + D.nanos := by
  intro a b D steps r
  refine ⟨by simp [steps], ?_⟩
  subst r steps D b a
  decide_cbv

end Admission.Session
