import Admission.Proofs.Cancellation
import Admission.Proofs.Occupancy
import Admission.Simulation.Run
import Mathlib.Tactic.IntervalCases

/-!
# The flows of a simulation

The callers of a simulation are all of one kind. A flow calls once, it waits or is let in or is
cancelled, and if it was let in it keeps its handle and releases it once. Nobody goes away, nobody
is cancelled by name, and neither the capacity nor the policy is ever changed. `Simulation.Serves`
says this of a session, and that the session keeps to its capacity; it is kept by everything that
happens in a simulation.

How much a flow still has before it is counted (`Simulation.remaining`):

> two ends at most, that of its hold time and that of its linger, and nothing that happens makes
> them more.
-/

set_option autoImplicit false

namespace Admission

/-- The ends that lie before a call: that of the time for which it keeps its slot, and that of its
linger. `here` says whether its ticket is with its entry. -/
def Phase.endsAhead (phase : Phase) (here : Bool) : Nat :=
  match phase with
  | .pending => 2
  | .admitted _ none => 2
  | .admitted _ (some (.ends _ _)) => if here then 1 else 0
  | .admitted _ (some .endless) => 0
  | .cancelled => 0
  | .abandoned => 0

namespace Phase

theorem endsAhead_le (phase : Phase) (here : Bool) : phase.endsAhead here ≤ 2 := by
  unfold endsAhead
  split
  · exact le_rfl
  · exact le_rfl
  · split <;> omega
  · exact Nat.zero_le _
  · exact Nat.zero_le _
  · exact Nat.zero_le _

theorem endsAhead_gone_le (phase : Phase) (here : Bool) :
    phase.endsAhead false ≤ phase.endsAhead here := by
  unfold endsAhead
  split <;> simp

theorem endsAhead_released_le (held : Bool) (r : Release) (here : Bool) :
    (Phase.admitted held (some r)).endsAhead here ≤ 1 := by
  cases r with
  | ends announced freed => cases here <;> simp [endsAhead]
  | endless => exact Nat.zero_le _

end Phase

namespace Session

variable {s s₁ : Session} {events : List Event}

/-- A turn carries out one transaction at most, which leaves the settings alone. -/
theorem Turn.controller_cases (h : Turn s s₁ events) :
    s₁.controller = s.controller ∨ ∃ tx, s₁.controller = s.controller.apply tx ∧
      (∀ k, tx ≠ .setCapacity k) ∧ ∀ p, tx ≠ .setPolicy p := by
  cases h with
  | @expire i w instant hw hend hdue => exact Or.inr ⟨.expire w.ticket, rfl, by simp, by simp⟩
  | @evaluate i w cancelled hw hpending _ =>
    refine Or.inr ⟨.evaluate w.ticket cancelled, ?_, by simp, by simp⟩
    unfold conclude
    split <;> rfl
  | blocked t => exact Or.inl rfl
  | tick _ _ _ _ => exact Or.inl rfl

end Session

namespace Simulation

open Session

/-- The clocks at which the deadlines of the flows end: of those that call at clock zero, and of
those that call a millisecond later. -/
def deadlineStops (o : Options) : Finset Nat :=
  match o.deadline with
  | none => ∅
  | some D => {millisOf (timerEnd 0 D), millisOf (timerEnd (instantOfMillis 1) D)}

/-- The deadline with which a flow calls. For one that calls late it may have been running for a
millisecond. -/
def DeadlineFits (o : Options) (clock : Nat) (deadline : Option Span) : Prop :=
  deadline = o.deadline ∨
    (clock ≠ 0 ∧ deadline = o.deadline.map fun D => ⟨D.nanos - Span.nanosPerMilli⟩)

/-- A call as a flow makes it, at the clock or before. -/
structure IsFlow (settings : Settings) (o : Options) (clock : Nat) (w : Wait) : Prop where
  deadline : w.deadline.isSome = o.deadline.isSome
  stops : ∀ instant, w.deadlineEnd? = some instant → millisOf instant ∈ deadlineStops o
  /-- Nobody goes away, and nobody lets go of a handle. -/
  phase : w.phase = .pending ∨ (w.phase = .cancelled ∧ o.deadline.isSome = true) ∨
    ∃ release, w.phase = .admitted true release
  endless : w.release? = some .endless →
    instantBound ≤ instantOfMillis clock + settings.linger.nanos

/-- The session serves flows under these settings, and nobody else. -/
structure Serves (settings : Settings) (o : Options) (s : Session) : Prop where
  orderly : s.Orderly
  capacity : s.controller.capacity = settings.capacity
  policy : s.controller.policy = .constant settings.linger
  tokens : s.cancelledTokens = []
  within : ∀ m, settings.capacity = .limited m → s.controller.numEntries ≤ m.toNat
  flows : ∀ (i : Nat) (w : Wait), s.waits[i]? = some w → IsFlow settings o s.clock w

variable {settings : Settings} {o : Options} {s s₁ : Session} {events : List Event} {i : Nat}
  {w : Wait}

/-! ## Deadlines -/

/-- Wherever the deadline of a flow begins, it ends at one of two clocks. -/
theorem millisOf_mem_deadlineStops {clock : Nat} {deadline : Option Span} (hclock : clock ≤ 1)
    (hfits : DeadlineFits o clock deadline) {D : Span} (hD : deadline = some D) :
    millisOf (timerEnd (instantOfMillis clock) D) ∈ deadlineStops o := by
  rcases hfits with rfl | ⟨hlate, rfl⟩
  · rw [deadlineStops, hD]
    interval_cases clock
    · exact Finset.mem_insert_self _ _
    · exact Finset.mem_insert_of_mem (Finset.mem_singleton_self _)
  · obtain ⟨D₀, hD₀, rfl⟩ := Option.map_eq_some_iff.mp hD
    obtain rfl : clock = 1 := by omega
    rw [deadlineStops, hD₀]
    -- A shorter deadline that begins later ends with the whole one, or where both are cut.
    simp only [Finset.mem_insert, Finset.mem_singleton, timerEnd, millisOf, Span.millisCeil,
      instantOfMillis, Span.nanosPerMilli]
    omega

/-! ## What is kept -/

theorem IsFlow.later {clock clock' : Nat} (h : IsFlow settings o clock w) (hle : clock ≤ clock') :
    IsFlow settings o clock' w where
  deadline := h.deadline
  stops := h.stops
  phase := h.phase
  endless hr := (h.endless hr).trans (Nat.add_le_add_right (instantOfMillis_mono hle) _)

/-- What was settled by a turn was a flow that waited, and it was cancelled only with a deadline. -/
theorem IsFlow.settle {clock : Nat} (h : IsFlow settings o clock w) {outcome : Outcome}
    (hcancelled : outcome = .cancelled → o.deadline.isSome = true) :
    IsFlow settings o clock { w with phase := outcome.phase } where
  deadline := h.deadline
  stops := h.stops
  phase := by
    cases outcome with
    | admitted => exact Or.inr (Or.inr ⟨none, rfl⟩)
    | cancelled => exact Or.inr (Or.inl ⟨rfl, hcancelled rfl⟩)
  endless hr := by cases outcome <;> cases hr

theorem IsFlow.release {clock : Nat} (h : IsFlow settings o clock w) :
    IsFlow settings o clock
      { w with phase := .admitted true (some (releaseAt clock .timer settings.linger)) } where
  deadline := h.deadline
  stops := h.stops
  phase := Or.inr (Or.inr ⟨_, rfl⟩)
  endless hr := by
    by_contra hbefore
    have hends : releaseAt clock .timer settings.linger = .ends _ _ :=
      releaseAt_eq_ends_iff.mpr ⟨not_le.mp hbefore, rfl, rfl⟩
    rw [show releaseAt clock .timer settings.linger = .endless from Option.some.inj hr] at hends
    cases hends

namespace Serves

theorem new (settings : Settings) (o : Options) :
    Serves settings o (.new settings.capacity settings.linger) where
  orderly := orderly_new _ _
  capacity := rfl
  policy := rfl
  tokens := rfl
  within _ _ := by
    rw [show (Session.new settings.capacity settings.linger).controller.numEntries = 0 from
      Std.ExtTreeMap.size_empty]
    exact Nat.zero_le _
  flows i w hw := by simp [Session.new] at hw

theorem atClock (h : Serves settings o s) {ms : Nat} (hle : s.clock ≤ ms) :
    Serves settings o { s with clock := ms } where
  orderly := h.orderly.atClock ms
  capacity := h.capacity
  policy := h.policy
  tokens := h.tokens
  within := h.within
  flows i w hw := (h.flows i w hw).later hle

/-- Whoever was cancelled had a deadline. -/
theorem deadline_of_cancelled (h : Serves settings o s) (hw : s.waits[i]? = some w)
    (hcancelled : s.isCancelled w = true) : o.deadline.isSome = true := by
  obtain htoken | ⟨D, hD, -⟩ := isCancelled_iff.mp hcancelled
  · rw [h.tokens] at htoken
    cases htoken
  · rw [← (h.flows i w hw).deadline, hD]
    rfl

/-- Only one phase changes, and to one that a flow can have. -/
theorem flows_setPhase (h : Serves settings o s) {phase : Phase}
    (hwaits : s₁.waits = (s.setPhase i phase).waits) (hclock : s₁.clock = s.clock)
    (hflow : ∀ w, s.waits[i]? = some w → IsFlow settings o s.clock { w with phase := phase })
    {j : Nat} {v : Wait} (hv : s₁.waits[j]? = some v) : IsFlow settings o s₁.clock v := by
  rw [hclock]
  rw [hwaits, getElem?_setPhase] at hv
  split at hv
  case isTrue hij =>
    subst hij
    obtain ⟨u, hu, rfl⟩ := Option.map_eq_some_iff.mp hv
    exact hflow u hu
  case isFalse => exact h.flows j v hv

theorem turn (h : Serves settings o s) (hturn : Turn s s₁ events) (hclock : s₁.clock = s.clock) :
    Serves settings o s₁ where
  orderly := hturn.replays.orderly h.orderly
  capacity := by
    rcases hturn.controller_cases with hsame | ⟨tx, htx, hcapacity, -⟩
    · rw [hsame, h.capacity]
    · rw [htx, ← h.capacity]
      cases tx with
      | setCapacity k => exact absurd rfl (hcapacity k)
      | evaluate t cancelled => exact Controller.capacity_apply_evaluate _ t cancelled
      | _ => rfl
  policy := by
    rcases hturn.controller_cases with hsame | ⟨tx, htx, -, hpolicy⟩
    · rw [hsame, h.policy]
    · rw [htx, ← h.policy]
      cases tx with
      | setPolicy p => exact absurd rfl (hpolicy p)
      | evaluate t cancelled =>
        show (s.controller.execute t (s.controller.verdict t cancelled)).policy = _
        cases s.controller.verdict t cancelled <;> rfl
      | _ => rfl
  tokens := (hturn.follows h.orderly).cancelledTokens.trans h.tokens
  within m hm := by
    rcases hturn.controller_cases with hsame | ⟨tx, htx, -⟩
    · rw [hsame]
      exact h.within m hm
    · rw [htx]
      have hle := Controller.numEntries_apply_le_max_of_before (h.capacity.trans hm) tx
      exact hle.trans (max_le (h.within m hm) le_rfl)
  flows j v hv := by
    rcases hturn.waits_cases h.orderly with ⟨hwaits, -⟩ | ⟨i, w, outcome, hw, -, hwaits, hsettled⟩
    · rw [hclock]
      exact h.flows j v (hwaits ▸ hv)
    · refine h.flows_setPhase hwaits hclock (fun u hu => ?_) hv
      refine (h.flows i u hu).settle fun hcancelled => ?_
      obtain ⟨k, u', hu', -, hc, -⟩ := hturn.withdraws_or (e := ⟨i, outcome, s.clock⟩)
        (by simp [hsettled]) hcancelled
      exact h.deadline_of_cancelled hu' hc

theorem register (h : Serves settings o s) (hclock : s.clock ≤ 1)
    {e : Entry} {reason token : String}
    {p : Priority} {deadline : Option Span} (hfits : DeadlineFits o s.clock deadline) :
    Serves settings o (s.register (s.newWait e reason p token deadline)) where
  orderly := (Request.call e reason p token deadline).replays.orderly h.orderly
  capacity := h.capacity
  policy := h.policy
  tokens := h.tokens
  within := h.within
  flows j v hv := by
    rw [Session.register, Array.getElem?_push] at hv
    split at hv
    · obtain rfl := Option.some.inj hv
      refine ⟨?_, ?_, Or.inl rfl, fun hr => by cases hr⟩
      · rcases hfits with rfl | ⟨-, rfl⟩
        · rfl
        · simp [newWait]
      · intro instant hinstant
        obtain ⟨D, hD, rfl⟩ := Option.map_eq_some_iff.mp hinstant
        exact millisOf_mem_deadlineStops hclock hfits hD
    · exact h.flows j v hv

theorem release (h : Serves settings o s) (hw : s.waits[i]? = some w)
    (hphase : w.phase = .admitted true none) :
    Serves settings o
      (s.setPhase i (.admitted true (some (s.releaseAfter .timer settings.linger)))) where
  orderly := by
    obtain ⟨l, hl⟩ := h.orderly
    have hfits := hl.fits i w hw
    rw [hphase] at hfits
    have hreleased : l.Accounts (s.setPhase w.ticket.id (.admitted true _)) :=
      hl.setPhase hw (hfits.release (s.releaseAfter .timer settings.linger))
    rw [hl.id_eq hw] at hreleased
    exact ⟨l, hreleased⟩
  capacity := h.capacity
  policy := h.policy
  tokens := h.tokens
  within := h.within
  flows j v hv := h.flows_setPhase rfl rfl (fun u hu => (h.flows i u hu).release) hv

/-- The flow that keeps its slot releases it, and the policy answers. -/
theorem releaseFlow_eq (h : Serves settings o s) (hw : s.waits[i]? = some w)
    (hphase : w.phase = .admitted true none) :
    Progress.releaseFlow s i =
      (s.setPhase i (.admitted true (some (s.releaseAfter .timer settings.linger))),
        s.releaseEvents w.ticket settings.linger) := by
  have hheld : s.held? i = some w :=
    held?_eq_some_iff.mpr ⟨hw, by simp [Wait.isHeld, hphase]⟩
  have hrelease : w.release? = none := by simp [Wait.release?, hphase]
  have hask : s.askPolicy w = .ok settings.linger := by
    rw [askPolicy, h.policy, Policy.ask_constant]
  simp only [Progress.releaseFlow, hheld, finish, finishBy, hrelease, hask, Session.release,
    h.orderly.id_eq hw]

end Serves

/-! ## What a flow still has before it -/

/-- The ends that lie before a flow. One that has not called may have both. -/
def remaining (s : Session) (i : Nat) : Nat :=
  match s.waits[i]? with
  | none => 2
  | some w => w.phase.endsAhead (s.controller.holds w.ticket)

theorem remaining_eq (hw : s.waits[i]? = some w) :
    remaining s i = w.phase.endsAhead (s.controller.holds w.ticket) := by
  rw [remaining, hw]

theorem remaining_le (s : Session) (i : Nat) : remaining s i ≤ 2 := by
  unfold remaining
  split
  · exact le_rfl
  · exact Phase.endsAhead_le _ _

theorem remaining_turn_le (hturn : Turn s s₁ events) (hs : s.Orderly) (i : Nat) :
    remaining s₁ i ≤ remaining s i := by
  cases hw : s.waits[i]? with
  | none =>
    rw [show remaining s i = 2 by rw [remaining, hw]]
    exact remaining_le s₁ i
  | some v =>
    obtain ⟨w, hw', hbecomes⟩ := (hturn.follows hs).waits i v hw
    rw [remaining_eq hw, remaining_eq hw']
    by_cases hpending : v.phase = .pending
    · rw [hpending]
      exact Phase.endsAhead_le _ _
    · obtain rfl := hbecomes.eq_of_ne_pending hpending
      rcases hturn.holds hs hw hpending with hsame | ⟨hgone, -⟩
      · rw [hsame]
      · rw [hgone]
        exact Phase.endsAhead_gone_le _ _

theorem remaining_register_le (s : Session) (w : Wait) (i : Nat) :
    remaining (s.register w) i ≤ remaining s i := by
  cases hv : s.waits[i]? with
  | none =>
    rw [show remaining s i = 2 by rw [remaining, hv]]
    exact remaining_le _ i
  | some v =>
    have hv' : (s.register w).waits[i]? = some v := getElem?_of_push rfl hv
    rw [remaining_eq hv, remaining_eq hv']
    exact le_rfl

theorem remaining_setPhase_le (hw : s.waits[i]? = some w) (hphase : w.phase = .admitted true none)
    (phase : Phase) (j : Nat) : remaining (s.setPhase i phase) j ≤ remaining s j := by
  by_cases hij : i = j
  · subst hij
    rw [remaining_eq hw, hphase]
    exact remaining_le _ i
  · have hsame : (s.setPhase i phase).waits[j]? = s.waits[j]? := by
      rw [getElem?_setPhase, if_neg hij]
    rw [remaining, hsame]
    exact le_rfl

/-- A flow whose linger has ended, and that is still with its entry, has one end before it. -/
theorem remaining_of_due (h : s.Due i) : remaining s i = 1 := by
  obtain ⟨w, instant, hw, hend, -⟩ := h
  obtain ⟨hholds, announced, hrelease⟩ := lingerEnd?_eq_some_iff.mp hend
  obtain ⟨held, hphase⟩ := Wait.phase_of_release? hrelease
  rw [remaining_eq hw, hphase, hholds]
  rfl

theorem remaining_of_released (hw : s.waits[i]? = some w) {r : Release} (hr : w.release? = some r) :
    remaining s i ≤ 1 := by
  obtain ⟨held, hphase⟩ := Wait.phase_of_release? hr
  rw [remaining_eq hw, hphase]
  exact Phase.endsAhead_released_le _ _ _

/-- A flow that has released its slot and is gone has no end before it. -/
theorem remaining_of_gone (hw : s.waits[i]? = some w) {r : Release} (hr : w.release? = some r)
    (hgone : s.controller.holds w.ticket = false) : remaining s i = 0 := by
  obtain ⟨held, hphase⟩ := Wait.phase_of_release? hr
  rw [remaining_eq hw, hphase, hgone]
  cases r <;> rfl

end Simulation

end Admission
