import Admission.Proofs.Stops
import Mathlib.Data.List.Induction

/-!
# The history of a run

A caller sees the steps of a run and the answers to them. What the session remembers of this is
written down with the calls, and here is said what of it a request can change:

> a call is added, or one call that waits is given up, or one handle is released or let go.

A call itself stays as it was made. So the ticket, the token and the deadline that are found with a
call are those of the step that made it, and the clock with it is the clock of that step
(`Session.called_of_run`).

Much happens in the course of one step, and what is reported of it does not tell when. Where the
moment matters, it is a session that the step passes (`Session.Passes`); what requests and turns
keep holds there as well as after the step (`Session.Invariant`).
-/

set_option autoImplicit false

namespace Admission

/-- The same call, whatever became of it. -/
def Wait.SameCall (v w : Wait) : Prop := w = { v with phase := w.phase }

namespace Wait

variable {u v w : Wait}

theorem SameCall.refl (w : Wait) : w.SameCall w := rfl

theorem SameCall.trans (h : u.SameCall v) (h' : v.SameCall w) : u.SameCall w := by
  rw [SameCall] at h h'
  rw [SameCall, h', h]

theorem SameCall.symm (h : v.SameCall w) : w.SameCall v := by
  rw [SameCall] at h ⊢
  rw [h]

theorem Becomes.sameCall (h : v.Becomes w) : v.SameCall w := by
  rcases h with rfl | ⟨-, o, rfl⟩
  · exact .refl _
  · rfl

end Wait

namespace Session

variable {s s₁ : Session} {what : Step} {told : List Event}

/-! ## What a request changes -/

theorem held?_eq_some_iff {i : Nat} {w : Wait} :
    s.held? i = some w ↔ s.waits[i]? = some w ∧ w.isHeld = true := by
  unfold held?
  cases hw : s.waits[i]? with
  | none => simp
  | some v =>
    simp only [Option.ite_none_right_eq_some, Option.some.injEq]
    constructor
    · rintro ⟨hheld, rfl⟩
      exact ⟨rfl, hheld⟩
    · rintro ⟨rfl, hheld⟩
      exact ⟨hheld, rfl⟩

/-- **A request adds a call, or gives one up, or releases a handle or lets it go, or leaves all
calls as they were.** -/
theorem Request.waits_cases (h : Request s what s₁ told) (hs : s.Orderly) :
    (∃ e reason p token deadline, what = .wait e reason p token deadline ∧
        s₁.waits = s.waits.push (s.newWait e reason p token deadline)) ∨
      (∃ i w, what = .abandon i ∧ s.pending? i = some w ∧
        s₁.waits = (s.setPhase i .abandoned).waits) ∨
      (∃ i w r, what.handle? = some i ∧ s.held? i = some w ∧
        (w.release? = some r ∨
          ∃ linger, s.Releases what i linger ∧ r = s.releaseAfter what.sleep linger) ∧
        s₁.waits = (s.setPhase i (.admitted (!what.letsGo) (some r))).waits) ∨
      (¬ what.IsCall ∧ s₁.waits = s.waits ∧ (∀ i, what = .abandon i → s.pending? i = none) ∧
        ∀ i w, what.handle? = some i → s.held? i = some w →
          what.letsGo = false ∧ (w.release? = none → s.lingerOf? w what = none)) := by
  cases h with
  | call e reason p token deadline => exact Or.inl ⟨e, reason, p, token, deadline, rfl, rfl⟩
  | @abandon i w hw =>
    obtain rfl := hs.id_eq (getElem?_of_pending? hw).1
    exact Or.inr (Or.inl ⟨_, w, rfl, hw, rfl⟩)
  | @release _ i w linger _ hhandle hw hrelease hlinger _ =>
    obtain rfl := hs.id_eq (getElem?_of_held? hw).1
    have hreleases : s.Releases what w.ticket.id linger := ⟨hhandle, w, hw, hrelease, hlinger⟩
    exact Or.inr (Or.inr (Or.inl ⟨_, w, _, hhandle, hw, Or.inr ⟨linger, hreleases, rfl⟩, rfl⟩))
  | @letGo _ i w r hhandle hw hrelease hgo =>
    obtain rfl := hs.id_eq (getElem?_of_held? hw).1
    refine Or.inr (Or.inr (Or.inl ⟨_, w, r, hhandle, hw, Or.inl hrelease, ?_⟩))
    rw [hgo]
    rfl
  | nothing hcall _ habandon hhandle _ =>
    exact Or.inr (Or.inr (Or.inr ⟨hcall, rfl, habandon, hhandle⟩))
  | _ => exact Or.inr (Or.inr (Or.inr ⟨fun h => h, rfl, by simp, by simp [Step.handle?]⟩))

theorem Request.settles_nobody (h : Request s what s₁ told) :
    told.filterMap Event.settled? = [] := by
  have hasides : ∀ {told : List Event}, (∀ e ∈ told, e.IsAside) →
      told.filterMap Event.settled? = [] := by
    intro told htold
    refine List.filterMap_eq_nil_iff.mpr fun e he => ?_
    have haside := htold e he
    cases e with
    | admitted t clock waited => cases haside
    | cancelled t clock waited => cases haside
    | _ => rfl
  cases h with
  | release _ _ _ _ htold =>
    rw [List.filterMap_append, hasides htold, Session.release, releaseEvents]
    split <;> rfl
  | nothing _ _ _ _ htold => exact hasides htold
  | _ => rfl

theorem Request.clock_eq (h : Request s what s₁ told) : s₁.clock = s.clock := by
  cases h <;> rfl

/-- Only a cancellation adds to the tokens that were cancelled. -/
theorem Request.cancelledTokens_eq (h : Request s what s₁ told) (hwhat : ∀ t, what ≠ .cancel t) :
    s₁.cancelledTokens = s.cancelledTokens := by
  cases h with
  | cancel token => exact absurd rfl (hwhat token)
  | _ => rfl

/-! ## What stays -/

theorem getElem?_setPhase_of_ne {i j : Nat} {phase : Phase}
    (hwaits : s₁.waits = (s.setPhase i phase).waits)
    (hne : j ≠ i) {v : Wait} (hv : s.waits[j]? = some v) : s₁.waits[j]? = some v := by
  rw [hwaits, getElem?_setPhase, if_neg (Ne.symm hne)]
  exact hv

theorem getElem?_setPhase_self {i : Nat} {phase : Phase}
    (hwaits : s₁.waits = (s.setPhase i phase).waits)
    {w : Wait} (hw : s.waits[i]? = some w) : s₁.waits[i]? = some { w with phase := phase } := by
  rw [hwaits, getElem?_setPhase, if_pos rfl, hw]
  rfl

theorem getElem?_of_push {w : Wait} (hwaits : s₁.waits = s.waits.push w) {j : Nat} {v : Wait}
    (hv : s.waits[j]? = some v) : s₁.waits[j]? = some v := by
  rw [hwaits, Array.getElem?_push, if_neg (Array.getElem?_eq_some_iff.mp hv).1.ne]
  exact hv

/-! ## What turns report -/

/-- **Turns that take no time report just the calls that they settle.** -/
theorem Turns.mem_settled_iff {events : List Event} (h : Turns s s₁ events) (hs : s.Orderly)
    (hclock : s₁.clock = s.clock) {x : Settled} :
    x ∈ events.filterMap Event.settled? ↔
      x.clock = s.clock ∧ ∃ v, s.waits[x.id]? = some v ∧ v.phase = .pending ∧
        s₁.waits[x.id]? = some { v with phase := x.outcome.phase } := by
  induction h with
  | refl s =>
    refine ⟨fun hx => absurd hx List.not_mem_nil, ?_⟩
    rintro ⟨-, v, hv, hpending, hafter⟩
    rw [Option.some.inj (hv.symm.trans hafter)] at hpending
    exact absurd hpending x.outcome.phase_ne_pending
  | @cons s s₁ s₂ events later hturn hrest ih =>
    have hs₁ := hturn.replays.orderly hs
    have hle := (hturn.follows hs).clock_le
    have hle' := (hrest.follows hs₁).clock_le
    have hclock₁ : s₁.clock = s.clock := by omega
    have ih := ih hs₁ (hclock.trans hclock₁.symm)
    rw [hclock₁] at ih
    rw [List.filterMap_append, List.mem_append, ih]
    rcases hturn.waits_cases hs with ⟨hwaits, hnobody⟩ | ⟨i, w, o, hw, hpending, hwaits, hone⟩
    · rw [hnobody, hwaits]
      simp
    · -- One call is settled by the first turn, and the others are left to the later ones.
      rw [hone, List.mem_singleton]
      have hsettled := getElem?_setPhase_self hwaits hw
      constructor
      · rintro (rfl | ⟨hx, v, hv, hvpending, hafter⟩)
        · obtain ⟨w', hw', hbecomes⟩ := (hrest.follows hs₁).waits i _ hsettled
          obtain rfl := hbecomes.eq_of_ne_pending o.phase_ne_pending
          exact ⟨rfl, w, hw, hpending, hw'⟩
        · have hne : x.id ≠ i := by
            rintro rfl
            obtain rfl := Option.some.inj (hsettled.symm.trans hv)
            exact o.phase_ne_pending hvpending
          rw [hwaits, getElem?_setPhase, if_neg (Ne.symm hne)] at hv
          exact ⟨hx, v, hv, hvpending, hafter⟩
      · rintro ⟨hx, v, hv, hvpending, hafter⟩
        by_cases hxi : x.id = i
        · left
          rw [hxi] at hafter
          obtain ⟨w', hw', hbecomes⟩ := (hrest.follows hs₁).waits i _ hsettled
          obtain rfl := hbecomes.eq_of_ne_pending o.phase_ne_pending
          have hphase := congrArg Wait.phase (Option.some.inj (hafter.symm.trans hw'))
          obtain ⟨id, outcome, clock⟩ := x
          obtain rfl := Outcome.phase_injective hphase
          simp only at hxi hx
          rw [hxi, hx]
        · exact Or.inr ⟨hx, v, getElem?_setPhase_of_ne hwaits hxi hv, hvpending, hafter⟩

/-! ## In the course of a step -/

/-- In the course of the step the session comes to be `m` and goes on as `m'`, and this is reported
of it. -/
def Passes (s : Session) (what : Step) (m m' : Session) (events : List Event) : Prop :=
  ∃ s₁ told before later,
    Request s what s₁ told ∧ Turns s₁ m before ∧ Turns m' (s.step what).1 later ∧
      (s.step what).2.events = told ++ before ++ events ++ later

theorem Passes.mem_events {m m' : Session} {events : List Event} (h : s.Passes what m m' events)
    {e : Event} (he : e ∈ events) : e ∈ (s.step what).2.events := by
  obtain ⟨s₁, told, before, later, -, -, -, hevents⟩ := h
  simp [hevents, he]

/-- What a step reports, its request or a turn in its course has reported. -/
theorem mem_events_step (hs : s.Orderly) {e : Event} (he : e ∈ (s.step what).2.events) :
    (∃ s₁ told, Request s what s₁ told ∧ e ∈ told) ∨
      ∃ m m' events, s.Passes what m m' events ∧ Turn m m' events ∧ e ∈ events := by
  obtain ⟨s₁, told, later, hrequest, hturns, hevents⟩ := turns_step hs what
  rw [hevents] at he
  rcases List.mem_append.mp he with he | he
  · exact Or.inl ⟨s₁, told, hrequest, he⟩
  · obtain ⟨m, m', before, now, after, hbefore, hturn, hnow, hafter, rfl⟩ := hturns.exists_turn he
    have hpasses : s.Passes what m m' now :=
      ⟨s₁, told, before, after, hrequest, hbefore, hafter, by simp [hevents]⟩
    exact Or.inr ⟨m, m', now, hpasses, hturn, hnow⟩

/-- From a moment in the course of a step to its end there are only turns. -/
theorem Passes.follows {m m' : Session} {events : List Event} (h : s.Passes what m m' events)
    (hturn : Turn m m' events) (hs : s.Orderly) : Follows m (s.step what).1 := by
  obtain ⟨s₁, told, before, later, hrequest, hbefore, hafter, -⟩ := h
  have hm := hbefore.orderly (hrequest.replays.orderly hs)
  exact (hturn.follows hm).trans (hafter.follows (hturn.replays.orderly hm))

/-- Requests and turns keep the property. -/
structure Invariant (P : Session → Prop) : Prop where
  request : ∀ {s s₁ : Session} {what : Step} {told : List Event},
    Request s what s₁ told → s.Orderly → P s → P s₁
  turn : ∀ {s s₁ : Session} {events : List Event}, Turn s s₁ events → s.Orderly → P s → P s₁

namespace Invariant

variable {P : Session → Prop}

theorem turns {events : List Event} (hP : Invariant P) (h : Turns s s₁ events) (hs : s.Orderly)
    (hp : P s) : P s₁ := by
  induction h with
  | refl s => exact hp
  | cons hturn _ ih => exact ih (hturn.replays.orderly hs) (hP.turn hturn hs hp)

theorem passes (hP : Invariant P) {m m' : Session} {events : List Event}
    (h : s.Passes what m m' events) (hs : s.Orderly) (hp : P s) : m.Orderly ∧ P m := by
  obtain ⟨s₁, told, before, later, hrequest, hbefore, -, -⟩ := h
  have hs₁ := hrequest.replays.orderly hs
  exact ⟨hbefore.orderly hs₁, hP.turns hbefore hs₁ (hP.request hrequest hs hp)⟩

theorem step (hP : Invariant P) (hs : s.Orderly) (hp : P s) (what : Step) : P (s.step what).1 := by
  obtain ⟨s₁, told, later, hrequest, hturns, -⟩ := turns_step hs what
  exact hP.turns hturns (hrequest.replays.orderly hs) (hP.request hrequest hs hp)

end Invariant

/-! ## Runs from their ends -/

theorem run_append (s : Session) (steps later : List Step) :
    s.run (steps ++ later) =
      (((s.run steps).1.run later).1, (s.run steps).2 ++ ((s.run steps).1.run later).2) := by
  induction steps generalizing s with
  | nil => rfl
  | cons what rest ih =>
    simp only [List.cons_append, run, ih]

theorem run_concat (s : Session) (steps : List Step) (what : Step) :
    s.run (steps ++ [what]) =
      (((s.run steps).1.step what).1, (s.run steps).2 ++ [((s.run steps).1.step what).2]) :=
  run_append s steps [what]

theorem length_answers (s : Session) (steps : List Step) :
    (s.run steps).2.length = steps.length := by
  induction steps generalizing s with
  | nil => rfl
  | cons what rest ih => simp only [run, List.length_cons, ih]

variable {capacity : Capacity} {linger : Span}

/-- What holds at the beginning and is kept by every step holds of every run. -/
theorem run_induction {P : List Step → List Answer → Session → Prop}
    (hnew : P [] [] (new capacity linger))
    (hstep : ∀ steps what, let r := (new capacity linger).run steps
      r.1.Orderly → P steps r.2 r.1 →
        P (steps ++ [what]) (r.2 ++ [(r.1.step what).2]) (r.1.step what).1)
    (steps : List Step) :
    P steps ((new capacity linger).run steps).2 ((new capacity linger).run steps).1 := by
  induction steps using List.reverseRecOn with
  | nil => exact hnew
  | append_singleton steps what ih =>
    rw [run_concat]
    exact hstep steps what ((orderly_new capacity linger).run steps) ih

theorem Invariant.later {P : Session → Prop} (hP : Invariant P) (hs : s.Orderly) (hp : P s)
    (steps : List Step) : P (s.run steps).1 := by
  induction steps generalizing s with
  | nil => exact hp
  | cons what rest ih => exact ih ((replays_step s what).orderly hs) (hP.step hs hp what)

theorem Invariant.run {P : Session → Prop} (hP : Invariant P) (hnew : P (new capacity linger))
    (steps : List Step) : P ((new capacity linger).run steps).1 :=
  hP.later (orderly_new capacity linger) hnew steps

end Session

/-! ## The calls of a run -/

instance (what : Step) : Decidable what.IsCall :=
  match what with
  | .wait _ _ _ _ _ => isTrue trivial
  | .cancel _ | .abandon _ | .finish _ | .finishDetached _ | .drop _ | .lose _ | .view _
  | .advance _ | .setCapacity _ | .setPolicy _ | .capacity | .waitingFor _ | .statusJson
  | .statusText | .debug => isFalse id

/-- The number of calls among the steps. -/
def Step.calls (steps : List Step) : Nat := steps.countP fun what => what.IsCall

namespace Session

variable {s s₁ : Session} {what : Step} {told : List Event} {capacity : Capacity} {linger : Span}

theorem Request.size_waits (h : Request s what s₁ told) (hs : s.Orderly) :
    s₁.waits.size = s.waits.size + if what.IsCall then 1 else 0 := by
  rcases h.waits_cases hs with ⟨e, reason, p, token, deadline, rfl, hwaits⟩ |
    ⟨j, w, rfl, -, hwaits⟩ | ⟨j, w, r, hhandle, -, -, hwaits⟩ | ⟨hcall, hwaits, -⟩
  · rw [hwaits, Array.size_push]
    rfl
  · rw [hwaits]
    exact Array.size_modify
  · have hcall : ¬ what.IsCall := by
      intro hcall
      cases what with
      | wait => cases hhandle
      | _ => exact hcall
    rw [hwaits, if_neg hcall]
    exact Array.size_modify
  · rw [hwaits, if_neg hcall, Nat.add_zero]

theorem size_waits_step (hs : s.Orderly) (what : Step) :
    (s.step what).1.waits.size = s.waits.size + if what.IsCall then 1 else 0 := by
  obtain ⟨s₁, told, later, hrequest, hturns, -⟩ := turns_step hs what
  rw [(hturns.follows (hrequest.replays.orderly hs)).size, hrequest.size_waits hs]

theorem size_waits_run (steps : List Step) :
    ((new capacity linger).run steps).1.waits.size = Step.calls steps := by
  refine run_induction (P := fun steps _ s => s.waits.size = Step.calls steps) rfl ?_ steps
  intro steps what s hs ih
  rw [size_waits_step hs, ih, Step.calls, Step.calls, List.countP_append, List.countP_singleton]
  simp only [decide_eq_true_eq]

/-- The call was made by a step of the run, and is written down as it was made: under the next
number, with the clock at that moment. -/
def Called (s₀ : Session) (steps : List Step) (i : Nat) (w : Wait) : Prop :=
  ∃ before e reason p token deadline later,
    steps = before ++ .wait e reason p token deadline :: later ∧ i = Step.calls before ∧
    w = { (s₀.run before).1.newWait e reason p token deadline with phase := w.phase }

theorem Called.sameCall {s₀ : Session} {steps : List Step} {i : Nat} {v w : Wait}
    (h : Called s₀ steps i v) (hsame : v.SameCall w) : Called s₀ steps i w := by
  obtain ⟨before, e, reason, p, token, deadline, later, hsteps, hi, hv⟩ := h
  refine ⟨before, e, reason, p, token, deadline, later, hsteps, hi, ?_⟩
  rw [hsame, hv]

theorem Called.concat {s₀ : Session} {steps : List Step} {i : Nat} {w : Wait}
    (h : Called s₀ steps i w) (what : Step) : Called s₀ (steps ++ [what]) i w := by
  obtain ⟨before, e, reason, p, token, deadline, later, rfl, hi, hw⟩ := h
  exact ⟨before, e, reason, p, token, deadline, later ++ [what], by simp, hi, hw⟩

theorem sameCall_of_getElem?_setPhase {i j : Nat} {phase : Phase} {w : Wait}
    (hw : (s.setPhase i phase).waits[j]? = some w) : ∃ v, s.waits[j]? = some v ∧ v.SameCall w := by
  rw [getElem?_setPhase] at hw
  split at hw
  · obtain ⟨v, hv, rfl⟩ := Option.map_eq_some_iff.mp hw
    exact ⟨v, hv, rfl⟩
  · exact ⟨w, hw, .refl w⟩

/-- Each call after a request was there before, or is the one that the request makes. -/
theorem Request.before_or_new (h : Request s what s₁ told) (hs : s.Orderly) {i : Nat} {w : Wait}
    (hw : s₁.waits[i]? = some w) :
    (∃ v, s.waits[i]? = some v ∧ v.SameCall w) ∨
      ∃ e reason p token deadline, what = .wait e reason p token deadline ∧ i = s.waits.size ∧
        w = s.newWait e reason p token deadline := by
  rcases h.waits_cases hs with ⟨e, reason, p, token, deadline, rfl, hwaits⟩ |
    ⟨j, v, rfl, -, hwaits⟩ | ⟨j, v, r, hhandle, -, -, hwaits⟩ | ⟨hcall, hwaits, -⟩
  · rw [hwaits, Array.getElem?_push] at hw
    split at hw
    case isTrue hi =>
      exact Or.inr ⟨e, reason, p, token, deadline, rfl, hi, (Option.some.inj hw).symm⟩
    case isFalse => exact Or.inl ⟨w, hw, .refl w⟩
  · exact Or.inl (sameCall_of_getElem?_setPhase (hwaits ▸ hw))
  · exact Or.inl (sameCall_of_getElem?_setPhase (hwaits ▸ hw))
  · exact Or.inl ⟨w, hwaits ▸ hw, .refl w⟩

theorem Request.pending_before_or_new (h : Request s what s₁ told) (hs : s.Orderly) {i : Nat}
    {w : Wait} (hw : s₁.waits[i]? = some w) (hpending : w.phase = .pending) :
    s.waits[i]? = some w ∨
      ∃ e reason p token deadline, what = .wait e reason p token deadline ∧ i = s.waits.size ∧
        w = s.newWait e reason p token deadline := by
  have hphase : ∀ {j : Nat} {phase : Phase}, phase ≠ .pending →
      s₁.waits = (s.setPhase j phase).waits → s.waits[i]? = some w := by
    intro j phase hphase hwaits
    rw [hwaits, getElem?_setPhase] at hw
    split at hw
    · obtain ⟨v, -, rfl⟩ := Option.map_eq_some_iff.mp hw
      exact absurd hpending hphase
    · exact hw
  rcases h.waits_cases hs with ⟨e, reason, p, token, deadline, rfl, hwaits⟩ | ⟨j, v, -, -, hwaits⟩ |
    ⟨j, v, r, -, -, -, hwaits⟩ | ⟨-, hwaits, -⟩
  · rw [hwaits, Array.getElem?_push] at hw
    split at hw
    case isTrue hi =>
      exact Or.inr ⟨e, reason, p, token, deadline, rfl, hi, (Option.some.inj hw).symm⟩
    case isFalse => exact Or.inl hw
  · exact Or.inl (hphase (by simp) hwaits)
  · exact Or.inl (hphase (by simp) hwaits)
  · exact Or.inl (hwaits ▸ hw)

/-- **What is written down with a call is what its step said, and the clock then.** -/
theorem called_of_run {steps : List Step} {i : Nat} {w : Wait}
    (hw : ((new capacity linger).run steps).1.waits[i]? = some w) :
    Called (new capacity linger) steps i w := by
  -- On the steps from their end: the last one has made the call, or found it.
  induction steps using List.reverseRecOn generalizing w with
  | nil => simp [run, new] at hw
  | append_singleton steps what ih =>
    rw [run_concat] at hw
    have hs := (orderly_new capacity linger).run steps
    obtain ⟨s₁, told, later, hrequest, hturns, -⟩ := turns_step hs what
    obtain ⟨v, hv, hvw⟩ := (hturns.follows (hrequest.replays.orderly hs)).exists_before hw
    rcases hrequest.before_or_new hs hv with ⟨u, hu, huv⟩ | ⟨e, reason, p, token, d, rfl, hi, rfl⟩
    · exact ((ih hu).sameCall (huv.trans hvw.sameCall)).concat what
    · rw [size_waits_run] at hi
      exact ⟨steps, e, reason, p, token, d, [], rfl, hi, hvw.sameCall⟩

end Session

end Admission
