import Admission.Proofs.Occupancy

/-!
# A release takes effect once

A handle can be released again and again, kept or dropped or lost, and the policy may be another one
each time. Only the first release counts:

> a call that was released stays released as it was, and a ticket that has left its entry does not
> come back.

So of each call a run reports at most one release and at most one expiry
(`Session.HappensOnce`), and a release of a handle that was released before leaves the session as it
was, except that a caller who lets its handle go does not have it any longer.
-/

set_option autoImplicit false

namespace Admission

/-- The call whose handle the event reports as released. -/
def Event.released? : Event → Option Nat
  | .released t _ => some t.id
  | _ => none

/-- The call whose ticket the event reports as gone from its entry. -/
def Event.expired? : Event → Option Nat
  | .expired t _ => some t.id
  | _ => none

namespace Session

variable {s s₁ : Session} {what : Step} {told events : List Event} {capacity : Capacity}
  {linger : Span} {i : Nat} {w : Wait}

/-- The call was settled, and its ticket is not with its entry. -/
def Gone (s : Session) (i : Nat) : Prop :=
  ∃ w, s.waits[i]? = some w ∧ w.phase ≠ .pending ∧ s.controller.holds w.ticket = false

/-- The call was released. -/
def Released (s : Session) (i : Nat) : Prop := ∃ r, s.releaseOf? i = some r

/-- What happens to a call does not happen to it again: it stays so, and it is reported when it
comes to be so. -/
structure HappensOnce (report? : Event → Option Nat) (happened : Session → Nat → Prop) : Prop where
  stays : ∀ i, Invariant fun s => happened s i
  request : ∀ {s s₁ : Session} {what : Step} {told : List Event}, Request s what s₁ told →
    s.Orderly → told.filterMap report? = [] ∨
      ∃ i, told.filterMap report? = [i] ∧ ¬ happened s i ∧ happened s₁ i
  turn : ∀ {s s₁ : Session} {events : List Event}, Turn s s₁ events → s.Orderly →
    events.filterMap report? = [] ∨
      ∃ i, events.filterMap report? = [i] ∧ ¬ happened s i ∧ happened s₁ i

/-- The session with another policy in place. -/
def withPolicy (s : Session) (p : Policy) : Session :=
  s.withController (s.controller.apply (.setPolicy p))

theorem Orderly.withPolicy (hs : s.Orderly) (p : Policy) : (s.withPolicy p).Orderly :=
  (replays_perform s (.setPolicy p)).orderly hs

/-! ## What stays -/

theorem invariant_fallback : Invariant fun s => s.fallback = linger where
  request h _ hs := by
    rw [← hs]
    cases h <;> rfl
  turn h _ hs := by
    rw [← hs]
    cases h with
    | evaluate _ _ _ =>
      unfold conclude
      split <;> rfl
    | _ => rfl

theorem invariant_releaseOf? (i : Nat) (r : Release) :
    Invariant fun s => s.releaseOf? i = some r where
  request h hs hr := (h.releaseOf?_eq_some_iff hs i r).mpr (Or.inl hr)
  turn h hs hr := ((h.follows hs).releaseOf?_eq i).trans hr

theorem invariant_released (i : Nat) : Invariant fun s => s.Released i where
  request h hs hr := hr.imp fun r => (invariant_releaseOf? i r).request h hs
  turn h hs hr := hr.imp fun r => (invariant_releaseOf? i r).turn h hs

/-- A call that was settled is still there after a request, and still settled. -/
theorem Request.settled_after (h : Request s what s₁ told) (hs : s.Orderly)
    (hw : s.waits[i]? = some w) (hsettled : w.phase ≠ .pending) :
    ∃ w', s₁.waits[i]? = some w' ∧ w.SameCall w' ∧ w'.phase ≠ .pending := by
  have hi := (Array.getElem?_eq_some_iff.mp hw).1
  have hi' : i < s₁.waits.size := by
    rw [h.size_waits hs]
    omega
  have hw' := Array.getElem?_eq_getElem hi'
  refine ⟨_, hw', ?_, fun hpending => ?_⟩
  · rcases h.before_or_new hs hw' with ⟨v, hv, hsame⟩ | ⟨e, reason, p, token, D, -, hnew, -⟩
    · obtain rfl := Option.some.inj (hw.symm.trans hv)
      exact hsame
    · exact absurd hnew hi.ne
  · rcases h.pending_before_or_new hs hw' hpending with hv | ⟨e, reason, p, token, D, -, hnew, -⟩
    · rw [Option.some.inj (hw.symm.trans hv)] at hsettled
      exact hsettled hpending
    · exact absurd hnew hi.ne

theorem invariant_gone (i : Nat) : Invariant fun s => s.Gone i where
  request h hs hgone := by
    obtain ⟨w, hw, hsettled, hholds⟩ := hgone
    obtain ⟨w', hw', hsame, hsettled'⟩ := h.settled_after hs hw hsettled
    refine ⟨w', hw', hsettled', ?_⟩
    rw [h.holds_eq, hsame]
    exact hholds
  turn h hs hgone := by
    obtain ⟨w, hw, hsettled, hholds⟩ := hgone
    obtain ⟨w', hw', hbecomes⟩ := (h.follows hs).waits i w hw
    obtain rfl := hbecomes.eq_of_ne_pending hsettled
    refine ⟨w', hw', hsettled, ?_⟩
    rcases h.holds hs hw hsettled with hsame | ⟨hgone, -⟩
    · exact hsame.trans hholds
    · exact hgone

/-! ## What is reported -/

theorem filterMap_released?_of_asides (htold : ∀ e ∈ told, e.IsAside) :
    told.filterMap Event.released? = [] := by
  refine List.filterMap_eq_nil_iff.mpr fun e he => ?_
  have haside := htold e he
  cases e with
  | released t L => cases haside
  | _ => rfl

theorem happensOnce_release : HappensOnce Event.released? Released where
  stays := invariant_released
  request {s s₁ what told} h hs := by
    cases h with
    | @release _ id w L told hhandle hw hrelease hlinger htold =>
      have hreleases : s.Releases what id L := ⟨hhandle, w, hw, hrelease, hlinger⟩
      have hrequest : Request s what _ _ := .release hhandle hw hrelease hlinger htold
      have hafter := (hrequest.releaseOf?_eq_some_iff hs id _).mpr (Or.inr ⟨L, hreleases, rfl⟩)
      refine Or.inr ⟨id, ?_, ?_, _, hafter⟩
      · rw [List.filterMap_append, filterMap_released?_of_asides htold,
          ← hs.id_eq (getElem?_of_held? hw).1]
        simp only [Session.release, releaseEvents]
        split <;> rfl
      · rintro ⟨r, hr⟩
        rw [hreleases.releaseOf?_eq_none] at hr
        cases hr
    | nothing _ _ _ _ htold => exact Or.inl (filterMap_released?_of_asides htold)
    | _ => exact Or.inl rfl
  turn h _ := by
    left
    cases h with
    | evaluate _ _ _ =>
      unfold conclude
      split <;> rfl
    | _ => rfl

theorem happensOnce_expiry : HappensOnce Event.expired? Gone where
  stays := invariant_gone
  request h _ := by
    refine Or.inl (List.filterMap_eq_nil_iff.mpr fun e he => ?_)
    cases e with
    | expired t freed => exact absurd he (h.expires_nobody t freed)
    | _ => rfl
  turn {s s₁ events} h hs := by
    cases h with
    | @expire i w instant hw hend _ =>
      obtain ⟨hholds, announced, hrelease⟩ := lingerEnd?_eq_some_iff.mp hend
      obtain ⟨held, hphase⟩ := Wait.phase_of_release? hrelease
      refine Or.inr ⟨i, ?_, ?_, w, hw, by simp [hphase], Controller.holds_expire_self _ _⟩
      · rw [← hs.id_eq hw]
        rfl
      · rintro ⟨v, hv, -, hgone⟩
        obtain rfl := Option.some.inj (hw.symm.trans hv)
        exact Bool.noConfusion (hholds.symm.trans hgone)
    | evaluate _ _ _ =>
      left
      unfold conclude
      split <;> rfl
    | _ => exact Or.inl rfl

namespace HappensOnce

variable {report? : Event → Option Nat} {happened : Session → Nat → Prop} {reported : List Nat}

/-- What is reported now has not happened before, and so was not reported before. -/
theorem append (hold : reported.Nodup ∧ ∀ i ∈ reported, happened s i)
    (hstays : ∀ i, happened s i → happened s₁ i)
    (hnow : told.filterMap report? = [] ∨
      ∃ i, told.filterMap report? = [i] ∧ ¬ happened s i ∧ happened s₁ i) :
    (reported ++ told.filterMap report?).Nodup ∧
      ∀ i ∈ reported ++ told.filterMap report?, happened s₁ i := by
  obtain ⟨hnodup, hall⟩ := hold
  rcases hnow with hnone | ⟨i, hone, hbefore, hafter⟩
  · rw [hnone, List.append_nil]
    exact ⟨hnodup, fun i hi => hstays i (hall i hi)⟩
  · rw [hone]
    refine ⟨List.nodup_append.mpr ⟨hnodup, List.nodup_singleton i, ?_⟩, fun j hj => ?_⟩
    · rintro j hj k hk rfl
      exact hbefore (List.mem_singleton.mp hk ▸ hall j hj)
    · rcases List.mem_append.mp hj with hj | hj
      · exact hstays j (hall j hj)
      · exact List.mem_singleton.mp hj ▸ hafter

theorem turns (h : HappensOnce report? happened) (hturns : Turns s s₁ told) (hs : s.Orderly)
    (hold : reported.Nodup ∧ ∀ i ∈ reported, happened s i) :
    (reported ++ told.filterMap report?).Nodup ∧
      ∀ i ∈ reported ++ told.filterMap report?, happened s₁ i := by
  induction hturns generalizing reported with
  | refl s =>
    rw [List.filterMap_nil, List.append_nil]
    exact hold
  | cons hturn _ ih =>
    have hnow := append hold (fun i => (h.stays i).turn hturn hs) (h.turn hturn hs)
    rw [List.filterMap_append, ← List.append_assoc]
    exact ih (hturn.replays.orderly hs) hnow

/-- **What happens once is reported once.** -/
theorem run (h : HappensOnce report? happened) (steps : List Step) :
    let r := (new capacity linger).run steps
    ((r.2.flatMap Answer.events).filterMap report?).Nodup ∧
      ∀ i ∈ (r.2.flatMap Answer.events).filterMap report?, happened r.1 i := by
  refine run_induction (P := fun _ answers s =>
    ((answers.flatMap Answer.events).filterMap report?).Nodup ∧
      ∀ i ∈ (answers.flatMap Answer.events).filterMap report?, happened s i) ?_ ?_ steps
  · simp
  · intro steps what r hs hold
    obtain ⟨s₁, told, later, hrequest, hturns, hevents⟩ := turns_step hs what
    have hnow := append hold (fun i => (h.stays i).request hrequest hs) (h.request hrequest hs)
    have hend := h.turns hturns (hrequest.replays.orderly hs) hnow
    rw [List.flatMap_append, List.flatMap_singleton, hevents, List.filterMap_append,
      List.filterMap_append, ← List.append_assoc]
    exact hend

end HappensOnce

/-! ## Steps that settle nothing -/

theorem step_of_perform {s' : Session} {reply : Reply} (h : s.perform what = (s', reply, told))
    (hrest : s'.AtRest) (hnone : s'.NoneDue) :
    (s.step what).1 = s' ∧ (s.step what).2.reply = reply ∧ (s.step what).2.events = told := by
  simp only [step, h, hrest.settle_eq hnone, List.append_nil]
  exact ⟨trivial, trivial, trivial⟩

theorem AtRest.setPhase (h : s.AtRest) {phase : Phase} (hphase : phase ≠ .pending) (i : Nat) :
    (s.setPhase i phase).AtRest := by
  intro j v hv hpending
  rw [getElem?_setPhase] at hv
  split at hv
  · obtain ⟨u, -, rfl⟩ := Option.map_eq_some_iff.mp hv
    exact absurd hpending hphase
  · exact h j v hv hpending

/-- To keep a handle or not makes no linger end. -/
theorem NoneDue.setPhase_admitted (h : s.NoneDue) (hw : s.waits[i]? = some w) (held : Bool) :
    (s.setPhase i (.admitted held w.release?)).NoneDue := by
  rintro j ⟨v, instant, hv, hend, hdue⟩
  rw [getElem?_setPhase] at hv
  split at hv
  case isTrue hij =>
    subst hij
    rw [hw] at hv
    obtain rfl := Option.some.inj hv
    exact h i ⟨w, instant, hw, hend, hdue⟩
  case isFalse => exact h j ⟨v, instant, hv, hend, hdue⟩

/-! ## Releases after the first -/

section Again

variable {r : Release}

theorem perform_finish_of_released (hw : s.held? i = some w) (hr : w.release? = some r)
    (hwhat : what = .finish i ∨ what = .finishDetached i) :
    s.perform what = (s, .nothing, [.releasedAgain w.ticket]) := by
  simp only [perform_finish hwhat, withHandle, hw, finishBy, hr, Reply.ofFailure]

theorem perform_drop_of_released (hw : s.held? i = some w) (hr : w.release? = some r) :
    s.perform (.drop i) =
      (s.setPhase w.ticket.id (.admitted false w.release?), .nothing, []) := by
  simp only [perform, withHandle, hw, drop, hr]

theorem perform_lose_of_released (hw : s.held? i = some w) (hr : w.release? = some r) :
    s.perform (.lose i) =
      (s.setPhase w.ticket.id (.admitted false w.release?), .failed .callerFailed, []) := by
  simp only [perform, withHandle, hw, lose, hr]

/-- **To release a handle again does nothing**, but that a caller who lets it go has it no more. -/
theorem step_of_released (hs : s.Orderly) (hrest : s.AtRest) (hnone : s.NoneDue)
    (hw : s.waits[i]? = some w) (hheld : w.isHeld = true) (hr : w.release? = some r) :
    let unheld := s.setPhase i (.admitted false w.release?)
    (∀ what, what = .finish i ∨ what = .finishDetached i →
      (s.step what).1 = s ∧ (s.step what).2.reply = .nothing ∧
        (s.step what).2.events = [.releasedAgain w.ticket]) ∧
    ((s.step (.drop i)).1 = unheld ∧ (s.step (.drop i)).2.reply = .nothing ∧
      (s.step (.drop i)).2.events = []) ∧
    ((s.step (.lose i)).1 = unheld ∧ (s.step (.lose i)).2.reply = .failed .callerFailed ∧
      (s.step (.lose i)).2.events = []) := by
  intro unheld
  have hhandle : s.held? i = some w := held?_eq_some_iff.mpr ⟨hw, hheld⟩
  have hdrop := perform_drop_of_released hhandle hr
  have hlose := perform_lose_of_released hhandle hr
  rw [hs.id_eq hw] at hdrop hlose
  have hrest' : unheld.AtRest := hrest.setPhase (by simp) i
  have hnone' : unheld.NoneDue := hnone.setPhase_admitted hw false
  refine ⟨fun what hwhat => ?_, ?_, ?_⟩
  · exact step_of_perform (perform_finish_of_released hhandle hr hwhat) hrest hnone
  · exact step_of_perform hdrop hrest' hnone'
  · exact step_of_perform hlose hrest' hnone'

end Again

theorem toOption_eq_some_iff {ε α : Type} {x : Except ε α} {a : α} :
    x.toOption = some a ↔ x = .ok a := by
  cases x <;> simp [Except.toOption]

theorem toOption_eq_none_iff {ε α : Type} {x : Except ε α} :
    x.toOption = none ↔ ∃ e, x = .error e := by
  cases x <;> simp [Except.toOption]

/-- The ways to release a handle for the first time, and the linger of each. -/
theorem releases_iff (hw : s.waits[i]? = some w) {L : Span} :
    s.Releases what i L ↔
      w.isHeld = true ∧ w.release? = none ∧
        (((what = .finish i ∨ what = .finishDetached i) ∧ s.askPolicy w = .ok L) ∨
          (what = .drop i ∧ (s.askPolicy w).toOption.getD s.fallback = L) ∨
          (what = .lose i ∧ s.fallback = L)) := by
  have hheld : s.held? i = some w ↔ w.isHeld = true := by
    rw [held?_eq_some_iff]
    exact and_iff_right hw
  have hiff : s.Releases what i L ↔ what.handle? = some i ∧ w.isHeld = true ∧
      w.release? = none ∧ s.lingerOf? w what = some L := by
    refine and_congr_right' ⟨?_, fun ⟨hisHeld, hrest⟩ => ⟨w, hheld.mpr hisHeld, hrest⟩⟩
    rintro ⟨v, hv, hrest⟩
    obtain rfl := Option.some.inj (hw.symm.trans (getElem?_of_held? hv).1)
    exact ⟨hheld.mp hv, hrest⟩
  rw [hiff]
  cases what <;> simp [Step.handle?, lingerOf?, toOption_eq_some_iff] <;> tauto

/-- What a handle tells of its release is what the history tells of it. -/
theorem view_eq (steps : List Step)
    (hw : ((new capacity linger).run steps).1.waits[i]? = some w) :
    (w.view.isDone = true ↔ ∃ clock L, ReleasedAt (new capacity linger) steps i clock L) ∧
      ∀ clock L, ReleasedAt (new capacity linger) steps i clock L →
        w.view.expires = instantAfter (instantOfMillis clock) L := by
  have hiff : ∀ r, w.release? = some r ↔ ∃ what clock L,
      ReleasedBy (new capacity linger) steps i what clock L ∧ r = releaseAt clock what.sleep L :=
    fun r => releaseOf?_eq hw ▸ releaseOf?_run_iff steps i r
  constructor
  · rw [Wait.view, Option.isSome_iff_exists]
    constructor
    · rintro ⟨r, hr⟩
      obtain ⟨what, clock, L, hreleased, -⟩ := (hiff r).mp hr
      exact ⟨clock, L, what, hreleased⟩
    · rintro ⟨clock, L, what, hreleased⟩
      exact ⟨_, (hiff _).mpr ⟨what, clock, L, hreleased, rfl⟩⟩
  · rintro clock L ⟨what, hreleased⟩
    have hr := (hiff _).mpr ⟨what, clock, L, hreleased, rfl⟩
    simp only [Wait.view, Wait.announcedEnd?, hr, releaseAt]
    cases instantAfter (instantOfMillis clock) L <;> rfl

theorem view_later (hs : s.Orderly) (hw : s.waits[i]? = some w) (hdone : w.view.isDone = true)
    (steps : List Step) :
    ∃ w', (s.run steps).1.waits[i]? = some w' ∧ w'.view.isDone = true ∧
      w'.view.expires = w.view.expires := by
  obtain ⟨r, hr⟩ := Option.isSome_iff_exists.mp hdone
  have hlater := (invariant_releaseOf? i r).later hs ((releaseOf?_eq hw).trans hr) steps
  obtain ⟨w', hw', hsame⟩ := Option.bind_eq_some_iff.mp hlater
  refine ⟨w', hw', ?_, ?_⟩
  · simp only [Wait.view, hsame, Option.isSome_some]
  · simp only [Wait.view, Wait.announcedEnd?, hsame, hr]

/-- **A release takes effect once.** A run reports no call twice as released, and none twice as gone
from its entry. A handle is done exactly if some step of the run released it, and it tells the end
of the linger that was counted from the clock of that step, if that end can be named. The linger is
the policy's if the handle is kept, the policy's or else the default one if it is dropped, and the
default one if it is lost. What a handle that is done tells does not change any more, whatever comes
after, and a ticket that is gone stays gone. And whatever the policy is by then, to finish a handle
that is done is answered and changes nothing, and to drop or lose it changes nothing but that its
caller has it no longer. -/
theorem release_takes_effect_once (capacity : Capacity) (linger : Span) (steps : List Step) :
    let s₀ := new capacity linger
    let r := s₀.run steps
    let events := r.2.flatMap Answer.events
    (events.filterMap Event.released?).Nodup ∧ (events.filterMap Event.expired?).Nodup ∧
      ∀ (i : Nat) (w : Wait), r.1.waits[i]? = some w →
        (w.view.isDone = true ↔ ∃ clock L, ReleasedAt s₀ steps i clock L) ∧
        (∀ clock L, ReleasedAt s₀ steps i clock L →
          w.view.expires = instantAfter (instantOfMillis clock) L) ∧
        (∀ what L, r.1.Releases what i L ↔
          w.isHeld = true ∧ w.view.isDone = false ∧
            (((what = .finish i ∨ what = .finishDetached i) ∧ r.1.askPolicy w = .ok L) ∨
              (what = .drop i ∧ (r.1.askPolicy w).toOption.getD linger = L) ∨
              (what = .lose i ∧ linger = L))) ∧
        (r.1.Gone i → ∀ rest, (r.1.run rest).1.Gone i) ∧
        (w.view.isDone = true →
          (∀ rest, ∃ w', (r.1.run rest).1.waits[i]? = some w' ∧ w'.view.isDone = true ∧
            w'.view.expires = w.view.expires) ∧
          (w.isHeld = true → ∀ p,
            let s := r.1.withPolicy p
            let unheld := s.setPhase i (.admitted false w.release?)
            (∀ what, what = .finish i ∨ what = .finishDetached i →
              (s.step what).1 = s ∧ (s.step what).2.reply = .nothing ∧
                (s.step what).2.events = [.releasedAgain w.ticket]) ∧
            ((s.step (.drop i)).1 = unheld ∧ (s.step (.drop i)).2.reply = .nothing ∧
              (s.step (.drop i)).2.events = []) ∧
            ((s.step (.lose i)).1 = unheld ∧
              (s.step (.lose i)).2.reply = .failed .callerFailed ∧
              (s.step (.lose i)).2.events = []))) := by
  intro s₀ r events
  have hs : r.1.Orderly := (orderly_new capacity linger).run steps
  refine ⟨(happensOnce_release.run steps).1, (happensOnce_expiry.run steps).1, fun i w hw => ?_⟩
  obtain ⟨hdone, hexpires⟩ := view_eq steps hw
  refine ⟨hdone, hexpires, fun what L => ?_, ?_, fun hisDone => ?_⟩
  · have hfallback : r.1.fallback = linger := invariant_fallback.run rfl steps
    rw [releases_iff hw, hfallback]
    simp [Wait.view]
  · exact fun hgone rest => (invariant_gone i).later hs hgone rest
  · obtain ⟨release, hrelease⟩ := Option.isSome_iff_exists.mp hisDone
    refine ⟨fun rest => view_later hs hw hisDone rest, fun hheld p => ?_⟩
    have hrest : (r.1.withPolicy p).AtRest :=
      (atRest_new capacity linger).run (orderly_new capacity linger) steps
    have hnone : (r.1.withPolicy p).NoneDue := noneDue_run steps
    exact step_of_released (hs.withPolicy p) hrest hnone hw hheld hrelease

/-- A handle that is kept is finished a second time, with a policy in place that refuses to answer
for its entry. -/
theorem release_takes_effect_once_finished_twice :
    let a : Entry := ⟨"udp", "l", "a"⟩
    let steps := [.wait a "" .standard "root" none, .advance 2, .finish 0]
    let refusing : Policy := ⟨⟨7000000⟩, [], ["udp"], false⟩
    let r := (new (.limited 1) ⟨5000000⟩).run steps
    let s := r.1.withPolicy refusing
    ∃ w, r.1.waits[0]? = some w ∧ w.view.expires = some 7000000 ∧ (s.step (.finish 0)).1 = s ∧
      (s.step (.finish 0)).2.reply = .nothing ∧
      ∃ w', (r.1.run [.advance 1, .setPolicy refusing, .drop 0]).1.waits[0]? = some w' ∧
        w'.view.expires = some 7000000 := by
  intro a steps refusing r s
  have hw : r.1.waits[0]? =
      some ⟨⟨0, a, "", .standard⟩, "root", 0, none,
        .admitted true (some (.ends 7000000 7000000))⟩ := by
    subst s r refusing steps a
    decide_cbv
  obtain ⟨-, -, hcalls⟩ := release_takes_effect_once (.limited 1) ⟨5000000⟩ steps
  have hrun : (new (.limited 1) ⟨5000000⟩).run steps = r := rfl
  rw [hrun] at hcalls
  clear_value r
  obtain ⟨-, -, -, -, hdone⟩ := hcalls 0 _ hw
  obtain ⟨hlater, hagain⟩ := hdone rfl
  obtain ⟨hfinish, -, -⟩ := hagain rfl refusing
  obtain ⟨hsame, hreply, -⟩ := hfinish (.finish 0) (Or.inl rfl)
  obtain ⟨w', hw', -, hexpires'⟩ := hlater [.advance 1, .setPolicy refusing, .drop 0]
  exact ⟨_, hw, rfl, hsame, hreply, w', hw', hexpires'⟩

/-- A handle is lost while a policy of seven milliseconds is in place that answers for its entry. It
tells the end of the default linger of five. -/
theorem lost_without_policy :
    let a : Entry := ⟨"udp", "l", "a"⟩
    let steps := [.setPolicy (.constant ⟨7000000⟩), .wait a "" .standard "root" none]
    let before := ((new (.limited 1) ⟨5000000⟩).run steps).1
    let after := (before.step (.lose 0)).1
    (before.waits[0]?.map fun w => (before.askPolicy w).toOption) = some (some ⟨7000000⟩) ∧
      instantAfter before.now ⟨7000000⟩ = some 7000000 ∧
      (after.waits[0]?.map fun w => w.view.expires) = some (some 5000000) := by
  decide_cbv

end Session

end Admission
