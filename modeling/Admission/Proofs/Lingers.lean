import Admission.Proofs.History

/-!
# Releases and lingers

A handle is released once. What the release amounts to is written down with the call and stays
there, and it can be told from the steps of the run: from the step that released the handle, its
linger and the clock then (`Session.ReleasedBy`).

What becomes of the ticket afterwards is a matter of time:

> while the ticket is with its entry, the clock is not past the end that was announced, and when it
> is gone, the sleep through its linger has ended.

Both ends are one instant unless a timer does the sleeping and the linger is longer than a timer can
run (`Sleep.CanLast`). Then the clock makes no stop at the end of the timer, and the ticket leaves
its entry at the first stop after it. A thread sleeps as long as it is told.
-/

set_option autoImplicit false

namespace Admission

/-! ## Sleeping -/

namespace Sleep

/-- The sleep can last for the whole span. -/
def CanLast (sleep : Sleep) (instant : Nat) (L : Span) : Prop :=
  sleep = .timer → L.nanos ≤ longestTimer.nanos ∧ instant + L.nanos ≤ lastTimerEnd

variable {sleep : Sleep} {instant : Nat} {L : Span}

theorem endAfter_le (sleep : Sleep) (instant : Nat) (L : Span) :
    sleep.endAfter instant L ≤ instant + L.nanos := by
  cases sleep with
  | timer => exact Session.timerEnd_le instant L
  | thread => exact le_rfl

theorem CanLast.endAfter_eq (h : sleep.CanLast instant L) :
    sleep.endAfter instant L = instant + L.nanos := by
  cases sleep with
  | timer => exact Session.timerEnd_eq (h rfl).1 (h rfl).2
  | thread => rfl

end Sleep

namespace Session

variable {s s₁ : Session} {what : Step} {told events : List Event} {capacity : Capacity}
  {linger : Span} {steps : List Step}

/-! ## The release of a call -/

/-- The release of the call with this number, if there was one. -/
def releaseOf? (s : Session) (i : Nat) : Option Release := s.waits[i]?.bind Wait.release?

theorem releaseOf?_eq {i : Nat} {w : Wait} (hw : s.waits[i]? = some w) :
    s.releaseOf? i = w.release? := by rw [releaseOf?, hw, Option.bind_some]

/-- What a release at a clock amounts to. -/
def releaseAt (clock : Nat) (sleep : Sleep) (linger : Span) : Release :=
  match instantAfter (instantOfMillis clock) linger with
  | some announced => .ends announced (sleep.endAfter (instantOfMillis clock) linger)
  | none => .endless

theorem releaseAfter_eq (s : Session) (sleep : Sleep) (linger : Span) :
    s.releaseAfter sleep linger = releaseAt s.clock sleep linger := rfl

theorem releaseAt_eq_ends_iff {clock announced freed : Nat} {sleep : Sleep} {linger : Span} :
    releaseAt clock sleep linger = .ends announced freed ↔
      instantOfMillis clock + linger.nanos < instantBound ∧
        announced = instantOfMillis clock + linger.nanos ∧
        freed = sleep.endAfter (instantOfMillis clock) linger := by
  unfold releaseAt
  cases hafter : instantAfter (instantOfMillis clock) linger with
  | none =>
    have hbeyond : ¬ instantOfMillis clock + linger.nanos < instantBound := by
      intro hbefore
      rw [instantAfter, if_pos hbefore] at hafter
      cases hafter
    simp [hbeyond]
  | some instant =>
    obtain ⟨hbefore, rfl⟩ := instantAfter_eq_some_iff.mp hafter
    simp [hbefore, eq_comm]

theorem Releases.linger_eq {i : Nat} {L L' : Span} (h : s.Releases what i L)
    (h' : s.Releases what i L') : L' = L := by
  obtain ⟨-, w, hw, -, hlinger⟩ := h
  obtain ⟨-, w', hw', -, hlinger'⟩ := h'
  obtain rfl := Option.some.inj (hw.symm.trans hw')
  exact Option.some.inj (hlinger'.symm.trans hlinger)

theorem Releases.releaseOf?_eq_none {i : Nat} {L : Span} (h : s.Releases what i L) :
    s.releaseOf? i = none := by
  obtain ⟨-, w, hw, hrelease, -⟩ := h
  rw [releaseOf?_eq (getElem?_of_held? hw).1, hrelease]

theorem Follows.releaseOf?_eq (h : Follows s s₁) (i : Nat) : s₁.releaseOf? i = s.releaseOf? i := by
  cases hw : s₁.waits[i]? with
  | some w =>
    obtain ⟨v, hv, hbecomes⟩ := h.exists_before hw
    rw [Session.releaseOf?_eq hw, Session.releaseOf?_eq hv, hbecomes.release?_eq]
  | none =>
    have hv : s.waits[i]? = none := by
      rw [Array.getElem?_eq_none_iff] at hw ⊢
      rwa [← h.size]
    rw [releaseOf?, releaseOf?, hw, hv]

/-- A request releases the handle of the call, or leaves its release as it was. -/
theorem Request.releaseOf?_cases (h : Request s what s₁ told) (hs : s.Orderly) (i : Nat) :
    (s₁.releaseOf? i = s.releaseOf? i ∧ ∀ L, ¬ s.Releases what i L) ∨
      ∃ L, s.Releases what i L ∧ s₁.releaseOf? i = some (releaseAt s.clock what.sleep L) := by
  have hother : ∀ {j : Nat} {phase : Phase}, s₁.waits = (s.setPhase j phase).waits → i ≠ j →
      s₁.releaseOf? i = s.releaseOf? i := by
    intro j phase hwaits hij
    rw [releaseOf?, hwaits, getElem?_setPhase, if_neg hij.symm, releaseOf?]
  rcases h.waits_cases hs with ⟨e, reason, p, token, D, rfl, hwaits⟩ | ⟨j, w, rfl, hw, hwaits⟩ |
    ⟨j, w, r, hhandle, hw, hr, hwaits⟩ | ⟨-, hwaits, -, hhandle⟩
  · refine Or.inl ⟨?_, fun L hreleases => by cases hreleases.1⟩
    rw [releaseOf?, hwaits, Array.getElem?_push]
    split
    case isTrue hi =>
      have hnone : s.waits[i]? = none := by rw [hi]; exact Array.getElem?_size
      rw [releaseOf?, hnone]
      rfl
    case isFalse => rfl
  · refine Or.inl ⟨?_, fun L hreleases => by cases hreleases.1⟩
    by_cases hij : i = j
    · subst hij
      obtain ⟨hget, hpending⟩ := getElem?_of_pending? hw
      rw [releaseOf?_eq (getElem?_setPhase_self hwaits hget), releaseOf?_eq hget]
      simp [Wait.release?, hpending]
    · exact hother hwaits hij
  · by_cases hij : i = j
    · subst hij
      have hget := (getElem?_of_held? hw).1
      have hafter : s₁.releaseOf? i = some r := releaseOf?_eq (getElem?_setPhase_self hwaits hget)
      rcases hr with hbefore | ⟨L, hreleases, rfl⟩
      · have hsame : s.releaseOf? i = some r := (releaseOf?_eq hget).trans hbefore
        refine Or.inl ⟨hafter.trans hsame.symm, fun L hreleases => ?_⟩
        rw [hreleases.releaseOf?_eq_none] at hsame
        cases hsame
      · exact Or.inr ⟨L, hreleases, hafter⟩
    · refine Or.inl ⟨hother hwaits hij, fun L hreleases => hij ?_⟩
      exact Option.some.inj (hreleases.1.symm.trans hhandle)
  · refine Or.inl ⟨by rw [releaseOf?, hwaits, releaseOf?], ?_⟩
    rintro L ⟨hid, w, hw, hrelease, hlinger⟩
    rw [(hhandle i w hid hw).2 hrelease] at hlinger
    cases hlinger

/-- **A call comes by its release through the request that releases its handle for the first
time.** -/
theorem Request.releaseOf?_eq_some_iff (h : Request s what s₁ told) (hs : s.Orderly) (i : Nat)
    (r : Release) :
    s₁.releaseOf? i = some r ↔
      s.releaseOf? i = some r ∨ ∃ L, s.Releases what i L ∧ r = releaseAt s.clock what.sleep L := by
  rcases h.releaseOf?_cases hs i with ⟨hsame, hnone⟩ | ⟨L, hreleases, hafter⟩
  · simp [hsame, hnone]
  · rw [hafter, hreleases.releaseOf?_eq_none, Option.some.injEq]
    constructor
    · rintro rfl
      exact Or.inr ⟨L, hreleases, rfl⟩
    · rintro (hnone | ⟨L', hreleases', rfl⟩)
      · cases hnone
      · rw [hreleases.linger_eq hreleases']

theorem releaseOf?_step_iff (hs : s.Orderly) (what : Step) (i : Nat) (r : Release) :
    (s.step what).1.releaseOf? i = some r ↔
      s.releaseOf? i = some r ∨ ∃ L, s.Releases what i L ∧ r = releaseAt s.clock what.sleep L := by
  obtain ⟨s₁, told, later, hrequest, hturns, -⟩ := turns_step hs what
  rw [(hturns.follows (hrequest.replays.orderly hs)).releaseOf?_eq,
    hrequest.releaseOf?_eq_some_iff hs]

/-! ## The release in the history -/

/-- This step of the run released the handle of the call for the first time, with this linger; the
clock is that of the release. -/
def ReleasedBy (s₀ : Session) (steps : List Step) (i : Nat) (what : Step) (clock : Nat)
    (linger : Span) : Prop :=
  ∃ before later, steps = before ++ what :: later ∧
    (s₀.run before).1.Releases what i linger ∧ clock = (s₀.run before).1.clock

/-- Some step of the run released the handle of the call for the first time. -/
def ReleasedAt (s₀ : Session) (steps : List Step) (i clock : Nat) (linger : Span) : Prop :=
  ∃ what, ReleasedBy s₀ steps i what clock linger

theorem ReleasedBy.concat_iff {s₀ : Session} {i clock : Nat} {last : Step} {L : Span} :
    ReleasedBy s₀ (steps ++ [last]) i what clock L ↔
      ReleasedBy s₀ steps i what clock L ∨
        (last = what ∧ (s₀.run steps).1.Releases what i L ∧ clock = (s₀.run steps).1.clock) := by
  constructor
  · -- The step that released the handle is the last one, or was one of those before it.
    rintro ⟨before, later, hsteps, hreleases, hclock⟩
    rcases List.eq_nil_or_concat later with rfl | ⟨rest, end', rfl⟩
    · obtain ⟨rfl, hlast⟩ := List.append_inj' hsteps rfl
      exact Or.inr ⟨List.singleton_inj.mp hlast, hreleases, hclock⟩
    · rw [List.concat_eq_append, ← List.cons_append, ← List.append_assoc] at hsteps
      obtain ⟨rfl, -⟩ := List.append_inj' hsteps rfl
      exact Or.inl ⟨before, rest, rfl, hreleases, hclock⟩
  · rintro (⟨before, later, rfl, hreleases, hclock⟩ | ⟨rfl, hreleases, hclock⟩)
    · exact ⟨before, later ++ [last], by simp, hreleases, hclock⟩
    · exact ⟨steps, [], rfl, hreleases, hclock⟩

/-- **The release that is written down with a call is the one that the history tells.** -/
theorem releaseOf?_run_iff (steps : List Step) (i : Nat) (r : Release) :
    ((new capacity linger).run steps).1.releaseOf? i = some r ↔
      ∃ what clock L, ReleasedBy (new capacity linger) steps i what clock L ∧
        r = releaseAt clock what.sleep L := by
  refine run_induction (P := fun steps _ s => s.releaseOf? i = some r ↔
    ∃ what clock L, ReleasedBy (new capacity linger) steps i what clock L ∧
      r = releaseAt clock what.sleep L) ?_ ?_ steps
  · simp [releaseOf?, new, ReleasedBy]
  · intro steps last run hs ih
    rw [releaseOf?_step_iff hs, ih]
    simp only [ReleasedBy.concat_iff]
    constructor
    · rintro (⟨what, clock, L, hreleased, rfl⟩ | ⟨L, hreleases, rfl⟩)
      · exact ⟨what, clock, L, Or.inl hreleased, rfl⟩
      · exact ⟨last, _, L, Or.inr ⟨rfl, hreleases, rfl⟩, rfl⟩
    · rintro ⟨what, clock, L, hreleased | ⟨rfl, hreleases, rfl⟩, rfl⟩
      · exact Or.inl ⟨what, clock, L, hreleased, rfl⟩
      · exact Or.inr ⟨L, hreleases, rfl⟩

/-- A handle is released once. -/
theorem ReleasedBy.unique {what' : Step} {i clock clock' : Nat} {L L' : Span}
    (h : ReleasedBy (new capacity linger) steps i what clock L)
    (h' : ReleasedBy (new capacity linger) steps i what' clock' L') :
    what' = what ∧ clock' = clock ∧ L' = L := by
  induction steps using List.reverseRecOn with
  | nil =>
    obtain ⟨before, later, hsteps, -⟩ := h
    simp at hsteps
  | append_singleton steps last ih =>
    -- What was released before the last step, the last step does not release.
    have hnot : ∀ {what what' clock L L'}, ReleasedBy (new capacity linger) steps i what clock L →
        ¬ ((new capacity linger).run steps).1.Releases what' i L' := by
      intro what what' clock L L' hreleased hreleases
      have hsome := (releaseOf?_run_iff steps i _).mpr ⟨what, clock, L, hreleased, rfl⟩
      rw [hreleases.releaseOf?_eq_none] at hsome
      cases hsome
    rcases concat_iff.mp h with hbefore | ⟨rfl, hreleases, rfl⟩
    · rcases concat_iff.mp h' with hbefore' | ⟨-, hreleases', -⟩
      · exact ih hbefore hbefore'
      · exact absurd hreleases' (hnot hbefore)
    · rcases concat_iff.mp h' with hbefore' | ⟨rfl, hreleases', rfl⟩
      · exact absurd hreleases (hnot hbefore')
      · exact ⟨rfl, rfl, hreleases.linger_eq hreleases'⟩

/-! ## Lingers and the clock -/

/-- What is known of a ticket that was released with a linger that ends. -/
structure Timely (s : Session) (w : Wait) (announced freed : Nat) : Prop where
  freed_le : freed ≤ announced
  /-- The clock is not past the announced end while the ticket is with its entry. -/
  clock_le : s.controller.holds w.ticket = true → s.clock ≤ millisOf announced
  /-- The sleep has ended when the ticket is gone. -/
  freed_le_now : s.controller.holds w.ticket = false → freed ≤ s.now

/-- All lingers keep to their time. -/
def AllTimely (s : Session) : Prop :=
  ∀ (i : Nat) (w : Wait) (announced freed : Nat), s.waits[i]? = some w →
    w.release? = some (.ends announced freed) → s.Timely w announced freed

theorem allTimely_new (capacity : Capacity) (linger : Span) : (new capacity linger).AllTimely := by
  intro i w announced freed hw
  simp [new] at hw

/-- No request touches the holders of an entry. -/
theorem Request.holds_eq (h : Request s what s₁ told) (t : Ticket) :
    s₁.controller.holds t = s.controller.holds t := by
  cases h <;> rfl

theorem holds_of_not_released (hs : s.Orderly) {i : Nat} {w : Wait} {held : Bool}
    (hw : s.waits[i]? = some w) (hphase : w.phase = .admitted held none) :
    s.controller.holds w.ticket = true := by
  obtain ⟨l, hl⟩ := hs
  have hfits := hl.fits i w hw
  rw [hphase] at hfits
  exact (hl.place_eq_holding_iff (hl.mem_tickets hw)).mp hfits

/-- A ticket that is with its entry belongs to a call that was let in. -/
theorem admitted_of_holds (hs : s.Orderly) {i : Nat} {w : Wait} (hw : s.waits[i]? = some w)
    (hholds : s.controller.holds w.ticket = true) :
    ∃ held release, w.phase = .admitted held release := by
  obtain ⟨l, hl⟩ := hs
  have hfits := hl.fits i w hw
  rw [(hl.place_eq_holding_iff (hl.mem_tickets hw)).mpr hholds] at hfits
  cases hphase : w.phase with
  | admitted held release => exact ⟨held, release, rfl⟩
  | pending => rw [hphase] at hfits; cases hfits
  | cancelled => rw [hphase] at hfits; cases hfits
  | abandoned => rw [hphase] at hfits; cases hfits

theorem Releases.holds {i : Nat} {w : Wait} {L : Span} (h : s.Releases what i L) (hs : s.Orderly)
    (hw : s.waits[i]? = some w) : s.controller.holds w.ticket = true := by
  obtain ⟨-, v, hv, hrelease, -⟩ := h
  obtain ⟨hget, hphase⟩ := getElem?_of_held? hv
  obtain rfl := Option.some.inj (hw.symm.trans hget)
  rw [hrelease] at hphase
  exact holds_of_not_released hs hw hphase

theorem Request.allTimely (h : Request s what s₁ told) (hs : s.Orderly) (ht : s.AllTimely) :
    s₁.AllTimely := by
  intro i w announced freed hw hrelease
  have hafter := (releaseOf?_eq hw).trans hrelease
  obtain ⟨v, hv, hsame⟩ : ∃ v, s.waits[i]? = some v ∧ v.SameCall w := by
    rcases h.before_or_new hs hw with hbefore | ⟨e, reason, p, token, D, -, -, rfl⟩
    · exact hbefore
    · cases hrelease
  have hholds : s₁.controller.holds w.ticket = s.controller.holds v.ticket := by
    rw [h.holds_eq, hsame]
  rcases (h.releaseOf?_eq_some_iff hs i _).mp hafter with hbefore | ⟨L, hreleases, hends⟩
  · -- Released before: the ticket, its place and the clock are as they were.
    have hv_timely := ht i v announced freed hv (releaseOf?_eq hv ▸ hbefore)
    refine ⟨hv_timely.freed_le, ?_, ?_⟩
    · rw [hholds, h.clock_eq]
      exact hv_timely.clock_le
    · rw [hholds, now, h.clock_eq]
      exact hv_timely.freed_le_now
  · -- Released now: the ticket is with its entry, and the whole linger lies ahead.
    obtain ⟨-, rfl, rfl⟩ := releaseAt_eq_ends_iff.mp hends.symm
    refine ⟨what.sleep.endAfter_le _ L, fun _ => ?_, fun hgone => ?_⟩
    · rw [h.clock_eq]
      exact le_millisOf_add _ _
    · rw [hholds, hreleases.holds hs hv] at hgone
      cases hgone

/-- The clock goes on up to the announced end of a linger, while the ticket is with its entry. -/
theorem Turn.clock_le_millisOf (h : Turn s s₁ events) {i : Nat} {w : Wait} {announced freed : Nat}
    (hw : s.waits[i]? = some w) (hrelease : w.release? = some (.ends announced freed))
    (hholds : s.controller.holds w.ticket = true) (hfreed : freed ≤ announced)
    (hle : s.clock ≤ millisOf announced) : s₁.clock ≤ millisOf announced := by
  rcases h.clock_cases with hclock | ⟨-, hlingers, hstops⟩
  · exact hclock.trans_le hle
  · -- The linger has not ended, so the announced end lies ahead, and the clock stops there.
    have hahead : s.now < freed := by
      by_contra hpassed
      have hend := lingerEnd?_eq_some_iff.mpr ⟨hholds, announced, hrelease⟩
      exact hlingers i ⟨w, freed, hw, hend, not_lt.mp hpassed⟩
    have hannounced : w.announcedEnd? = some announced := by rw [Wait.announcedEnd?, hrelease]
    have hstop := lingerStop?_eq_some_iff.mpr ⟨hholds, hannounced⟩
    exact hstops announced (mem_ends_iff.mpr ⟨i, w, hw, Or.inr hstop⟩) (hahead.trans_le hfreed)

theorem Turn.allTimely (h : Turn s s₁ events) (hs : s.Orderly) (ht : s.AllTimely) :
    s₁.AllTimely := by
  intro i w announced freed hw hrelease
  obtain ⟨v, hv, hbecomes⟩ := (h.follows hs).exists_before hw
  obtain ⟨held, hphase⟩ := Wait.phase_of_release? (hbecomes.release?_eq ▸ hrelease)
  have hsettled : v.phase ≠ .pending := by simp [hphase]
  obtain rfl := hbecomes.eq_of_ne_pending hsettled
  have hbefore := ht i w announced freed hv hrelease
  have hnow := (h.follows hs).now_le
  rcases h.holds hs hv hsettled with hsame | ⟨hgone, instant, hend, hdue⟩
  · refine ⟨hbefore.freed_le, fun hholds => ?_, fun hgone => ?_⟩
    · rw [hsame] at hholds
      exact h.clock_le_millisOf hv hrelease hholds hbefore.freed_le (hbefore.clock_le hholds)
    · rw [hsame] at hgone
      exact (hbefore.freed_le_now hgone).trans hnow
  · -- It was the turn of this very ticket, and its linger is the one that has ended.
    obtain ⟨-, announced', hrelease'⟩ := lingerEnd?_eq_some_iff.mp hend
    obtain ⟨-, rfl⟩ := Release.ends.inj (Option.some.inj (hrelease.symm.trans hrelease'))
    refine ⟨hbefore.freed_le, fun hholds => ?_, fun _ => hdue.trans hnow⟩
    rw [hgone] at hholds
    cases hholds

theorem invariant_allTimely : Invariant AllTimely where
  request := Request.allTimely
  turn := Turn.allTimely

theorem allTimely_run (steps : List Step) : ((new capacity linger).run steps).1.AllTimely :=
  invariant_allTimely.run (allTimely_new capacity linger) steps

end Session

end Admission
