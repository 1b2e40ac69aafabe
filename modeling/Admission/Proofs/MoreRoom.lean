import Admission.Proofs.Contention
import Admission.Proofs.Occupancy

/-!
# More room lets more in

Two sessions are alike but for the capacity, and both settle. They do the same for a while,
evaluation by evaluation; then comes a caller for whom there is room in the one and none in the
other, and from there on the passes, the classes that wait and even the number of rounds differ.
What remains is this:

> as long as they do the same, the same entries are occupied; and when they part, the smaller one is
> full, and nobody comes in there any longer but to share an entry.

So the entries that are occupied in the end in the smaller session are occupied in the larger one as
well. And whoever got in there has an entry among these, so that he does not go on waiting here.
-/

set_option autoImplicit false

namespace Admission

namespace Capacity

/-- Capacities are ordered by the number of slots, and no limit is above all. -/
instance : LE Capacity where
  le k k' :=
    match k, k' with
    | _, .unlimited => True
    | .limited m, .limited n => m ≤ n
    | .unlimited, .limited _ => False

theorem hasRoom_mono {k k' : Capacity} (h : k ≤ k') {occupied : Nat}
    (hroom : k.hasRoom occupied = true) : k'.hasRoom occupied = true := by
  cases k' with
  | unlimited => rfl
  | limited n =>
    cases k with
    | unlimited => exact absurd h id
    | limited m =>
      have hle : m.toNat ≤ n.toNat := UInt64.le_iff_toNat_le.mp h
      simp only [hasRoom, decide_eq_true_eq] at hroom ⊢
      omega

end Capacity

namespace Session

variable {s : Session} {l : Ledger} {k : Capacity}

/-! ## Settling that only lets callers in

If no linger has ended and nobody who waits is cancelled, all that settling does is to evaluate
calls, and an evaluation leaves this so. -/

/-- Turns bring no settled call's ticket back to its entry. -/
theorem Turns.holds_before {s₁ : Session} {events : List Event} (h : Turns s s₁ events)
    (hs : s.Orderly) {i : Nat} {w : Wait} (hw : s.waits[i]? = some w) (hover : w.phase ≠ .pending)
    (hholds : s₁.controller.holds w.ticket = true) : s.controller.holds w.ticket = true := by
  induction h with
  | refl s => exact hholds
  | @cons s s₁ s₂ events later hturn hrest ih =>
    obtain ⟨w', hw', hbecomes⟩ := (hturn.follows hs).waits i w hw
    obtain rfl := hbecomes.eq_of_ne_pending hover
    have hbefore := ih (hturn.replays.orderly hs) hw' hholds
    rcases hturn.holds hs hw hover with hsame | ⟨hgone, -⟩
    · exact hsame.symm.trans hbefore
    · exact absurd (hgone.symm.trans hbefore) Bool.false_ne_true

theorem NoneDue.evaluate (h : s.NoneDue) (hs : s.Orderly) (id : Nat) :
    (s.evaluate id).1.NoneDue := by
  rintro i ⟨w, instant, hw, hend, hdue⟩
  obtain ⟨hholds, announced, hrelease⟩ := lingerEnd?_eq_some_iff.mp hend
  obtain ⟨v, hv, hbecomes⟩ := ((turns_evaluate s id).follows hs).exists_before hw
  obtain ⟨held, hphase⟩ := Wait.phase_of_release? (hbecomes.release?_eq.symm.trans hrelease)
  have hover : v.phase ≠ .pending := by simp [hphase]
  obtain rfl := hbecomes.eq_of_ne_pending hover
  rw [now, clock_evaluate] at hdue
  refine h i ⟨w, instant, hv, lingerEnd?_eq_some_iff.mpr ⟨?_, announced, hrelease⟩, hdue⟩
  exact (turns_evaluate s id).holds_before hs hv hover hholds

/-- No linger has ended, and nobody who waits is cancelled. -/
structure Calm (s : Session) : Prop where
  orderly : s.Orderly
  noneDue : s.NoneDue
  noneCancelled : s.NoneCancelled

namespace Calm

theorem evaluate (h : s.Calm) (id : Nat) : (s.evaluate id).1.Calm where
  orderly := (turns_evaluate s id).orderly h.orderly
  noneCancelled := h.noneCancelled.evaluate h.orderly id
  noneDue := h.noneDue.evaluate h.orderly id

theorem evaluateAll (h : s.Calm) (ids : List Nat) : (s.evaluateAll ids).1.Calm := by
  induction ids generalizing s with
  | nil => exact h
  | cons id rest ih => exact ih (h.evaluate id)

/-- A round is a pass, since there is nothing for the timers to do. -/
theorem settleRounds_succ (h : s.Calm) (fuel : Nat) :
    settleRounds (fuel + 1) s =
      if (s.evaluateAll s.pendingIds).2.isEmpty then ((s.evaluateAll s.pendingIds).1, [])
      else
        ((settleRounds fuel (s.evaluateAll s.pendingIds).1).1,
          (s.evaluateAll s.pendingIds).2 ++
            (settleRounds fuel (s.evaluateAll s.pendingIds).1).2) := by
  simp only [settleRounds, h.noneDue.expireDue_eq, List.nil_append]

theorem exists_settleRounds_eq (h : s.Calm) (fuel : Nat) :
    ∃ ids, (settleRounds fuel s).1 = (s.evaluateAll ids).1 := by
  induction fuel generalizing s with
  | zero => exact ⟨[], rfl⟩
  | succ fuel ih =>
    rw [h.settleRounds_succ]
    split
    · exact ⟨s.pendingIds, rfl⟩
    · obtain ⟨ids, hids⟩ := ih (h.evaluateAll s.pendingIds)
      exact ⟨s.pendingIds ++ ids, by rw [evaluateAll_append, ← hids]⟩

/-- The first of several rounds is a pass, and what comes after it are evaluations too. -/
theorem exists_rounds_after_pass (h : s.Calm) (fuel : Nat) :
    ∃ ids, (settleRounds (fuel + 1) s).1 =
      ((s.evaluateAll s.pendingIds).1.evaluateAll ids).1 := by
  rw [h.settleRounds_succ]
  split
  · exact ⟨[], rfl⟩
  · exact (h.evaluateAll s.pendingIds).exists_settleRounds_eq fuel

theorem admits (h : s.Calm) (ids : List Nat) (hl : l.Accounts s) :
    ∃ l', l'.Accounts (s.evaluateAll ids).1 ∧ l.Admits l' := by
  obtain ⟨order, hlooks, hallow, hl', -⟩ :=
    replays_evaluateAll h.noneCancelled h.orderly ids l hl
  exact ⟨_, hl', .applyAll hl.sound hallow hlooks⟩

/-- Evaluations free no entry. -/
theorem occupied_subset (h : s.Calm) (ids : List Nat) :
    s.controller.occupied ⊆ (s.evaluateAll ids).1.controller.occupied := by
  obtain ⟨l, hl⟩ := h.orderly
  obtain ⟨l', hl', hadmits⟩ := h.admits ids hl
  rw [← hl.controller, ← hl'.controller]
  exact hadmits.occupied_subset hl.sound

/-- Where the limit is reached, evaluations occupy no further entry. -/
theorem occupied_eq (h : s.Calm) (hfull : s.controller.IsFull) (ids : List Nat) :
    (s.evaluateAll ids).1.controller.occupied = s.controller.occupied := by
  obtain ⟨l, hl⟩ := h.orderly
  obtain ⟨l', hl', hadmits⟩ := h.admits ids hl
  rw [← hl.controller] at hfull ⊢
  rw [← hl'.controller]
  exact hadmits.occupied_eq hl.sound hfull

theorem capacity_eq (h : s.Calm) (ids : List Nat) :
    (s.evaluateAll ids).1.controller.capacity = s.controller.capacity := by
  obtain ⟨l, hl⟩ := h.orderly
  obtain ⟨l', hl', hadmits⟩ := h.admits ids hl
  rw [← hl.controller, ← hl'.controller]
  exact hadmits.capacity

theorem isFull (h : s.Calm) (hfull : s.controller.IsFull) (ids : List Nat) :
    (s.evaluateAll ids).1.controller.IsFull := by
  rw [Controller.IsFull, h.capacity_eq ids, ← Controller.card_occupied, h.occupied_eq hfull ids,
    Controller.card_occupied]
  exact hfull

end Calm

/-! ## Two sessions, one with more room -/

/-- The session with another capacity. -/
def withCapacity (s : Session) (k : Capacity) : Session :=
  s.withController (s.controller.apply (.setCapacity k))

theorem Calm.withCapacity (h : s.Calm) (k : Capacity) : (s.withCapacity k).Calm where
  orderly := (replays_perform s (.setCapacity k)).orderly h.orderly
  noneDue := h.noneDue
  noneCancelled := h.noneCancelled

theorem hasRoom_withCapacity (hle : s.controller.capacity ≤ k)
    (hroom : s.controller.hasRoom = true) :
    (s.withCapacity k).controller.hasRoom = true := Capacity.hasRoom_mono hle hroom

/-- With room in both or in neither, both do the same. -/
theorem conclude_withCapacity
    (hroom : (s.withCapacity k).controller.hasRoom = s.controller.hasRoom) (w : Wait)
    (cancelled : Bool) :
    (s.withCapacity k).conclude w cancelled =
      ((s.conclude w cancelled).1.withCapacity k, (s.conclude w cancelled).2) := by
  have hverdict : (s.withCapacity k).controller.verdict w.ticket cancelled =
      s.controller.verdict w.ticket cancelled := Controller.verdict_congr rfl rfl hroom
  simp only [conclude, Controller.apply, hverdict]
  cases s.controller.verdict w.ticket cancelled <;> rfl

theorem evaluate_withCapacity
    (hroom : (s.withCapacity k).controller.hasRoom = s.controller.hasRoom) (id : Nat) :
    (s.withCapacity k).evaluate id = ((s.evaluate id).1.withCapacity k, (s.evaluate id).2) := by
  have hwaits : (s.withCapacity k).waits = s.waits := rfl
  simp only [evaluate, hwaits]
  cases s.waits[id]? with
  | none => rfl
  | some w =>
    dsimp only
    split
    · exact conclude_withCapacity hroom w _
    · rfl

/-- **A pass with more room** does the same, or it parts from the one with less when that is
full. -/
theorem evaluateAll_withCapacity (h : s.Calm) (hle : s.controller.capacity ≤ k) (ids : List Nat) :
    (s.withCapacity k).evaluateAll ids =
        ((s.evaluateAll ids).1.withCapacity k, (s.evaluateAll ids).2) ∨
      ((s.evaluateAll ids).1.controller.IsFull ∧
        (s.evaluateAll ids).1.controller.occupied ⊆
          ((s.withCapacity k).evaluateAll ids).1.controller.occupied) := by
  induction ids generalizing s with
  | nil => exact Or.inl rfl
  | cons id rest ih =>
    by_cases hroom : (s.withCapacity k).controller.hasRoom = s.controller.hasRoom
    · have hcapacity : (s.evaluate id).1.controller.capacity = s.controller.capacity :=
        h.capacity_eq [id]
      have hle' : (s.evaluate id).1.controller.capacity ≤ k := by
        rw [hcapacity]
        exact hle
      have hrest := ih (h.evaluate id) hle'
      simp only [Session.evaluateAll, forEach, evaluate_withCapacity hroom] at hrest ⊢
      rcases hrest with hsame | hparted
      · exact Or.inl (by rw [hsame])
      · exact Or.inr hparted
    · -- Here they part, and nothing that comes in this pass makes a difference.
      have hfull : s.controller.IsFull := by
        rw [← Controller.hasRoom_eq_false_iff, ← Bool.not_eq_true]
        exact fun hsmall => hroom ((hasRoom_withCapacity hle hsmall).trans hsmall.symm)
      refine Or.inr ⟨h.isFull hfull _, ?_⟩
      rw [h.occupied_eq hfull]
      exact (h.withCapacity k).occupied_subset (id :: rest)

/-- **Rounds with more room** leave at least the same entries occupied. -/
theorem occupied_settleRounds_subset (h : s.Calm) (hle : s.controller.capacity ≤ k) (fuel : Nat) :
    (settleRounds fuel s).1.controller.occupied ⊆
      (settleRounds fuel (s.withCapacity k)).1.controller.occupied := by
  -- On the rounds. As long as both do the same, both go on or both stop.
  induction fuel generalizing s with
  | zero => exact Finset.Subset.refl _
  | succ fuel ih =>
    have hafter := h.evaluateAll s.pendingIds
    have hafter' := (h.withCapacity k).evaluateAll (s.withCapacity k).pendingIds
    rcases evaluateAll_withCapacity h hle s.pendingIds with hsame | ⟨hfull, hsubset⟩
    · have hle' : (s.evaluateAll s.pendingIds).1.controller.capacity ≤ k := by
        rw [h.capacity_eq]
        exact hle
      have hlater := ih hafter hle'
      rw [h.settleRounds_succ, (h.withCapacity k).settleRounds_succ]
      rw [show (s.withCapacity k).pendingIds = s.pendingIds from rfl, hsame]
      split
      · exact Finset.Subset.refl _
      · exact hlater
    · obtain ⟨ids, hids⟩ := h.exists_rounds_after_pass fuel
      obtain ⟨ids', hids'⟩ := (h.withCapacity k).exists_rounds_after_pass fuel
      rw [hids, hids', hafter.occupied_eq hfull]
      exact hsubset.trans (hafter'.occupied_subset ids')

/-- **Settling with more room** leaves at least the same entries occupied. -/
theorem occupied_settle_subset (h : s.Calm) {k k' : Capacity} (hle : k ≤ k') :
    (s.withCapacity k).settle.1.controller.occupied ⊆
      (s.withCapacity k').settle.1.controller.occupied :=
  occupied_settleRounds_subset (h.withCapacity k) hle (s.pendingIds.length + 1)

/-! ## The step -/

theorem step_setCapacity (s : Session) (k : Capacity) :
    (s.step (.setCapacity k)).1 = (s.withCapacity k).settle.1 ∧
      (s.step (.setCapacity k)).2.settled =
        (s.withCapacity k).settle.2.filterMap Event.settled? := ⟨rfl, rfl⟩

theorem AtRest.calm (hrest : s.AtRest) (hnone : s.NoneDue) (hs : s.Orderly) : s.Calm where
  orderly := hs
  noneDue := hnone
  noneCancelled := by
    intro w hw hpending
    obtain ⟨l, hl⟩ := hs
    obtain ⟨i, hi⟩ := Array.getElem?_of_mem hw
    exact (hrest.refuses hl hi hpending).1

theorem mem_settled_setCapacity_iff (hs : s.Orderly) (k : Capacity) {x : Settled} :
    x ∈ (s.withCapacity k).settle.2.filterMap Event.settled? ↔
      x.clock = s.clock ∧ ∃ v, s.waits[x.id]? = some v ∧ v.phase = .pending ∧
        (s.withCapacity k).settle.1.waits[x.id]? = some { v with phase := x.outcome.phase } :=
  (turns_settle (s.withCapacity k)).mem_settled_iff
    ((replays_perform s (.setCapacity k)).orderly hs) (clock_settle _)

/-- Who was let in has occupied his entry. -/
theorem mem_occupied_of_admitted (hs : s.Orderly) {i : Nat} {w : Wait} (hw : s.waits[i]? = some w)
    (hphase : w.phase = .admitted true none) : w.ticket.entry ∈ s.controller.occupied := by
  obtain ⟨l, hl⟩ := hs
  have hfits := hl.fits i w hw
  rw [hphase] at hfits
  rw [Controller.mem_occupied_iff, ← hl.controller, hl.sound.isOccupied_iff]
  exact ⟨w.ticket, hfits, rfl⟩

/-- Who waits for an entry that is occupied after settling has been let in. -/
theorem Calm.admitted_of_occupied (h : s.Calm) {i : Nat} {w : Wait} (hw : s.waits[i]? = some w)
    (hpending : w.phase = .pending) (hoccupied : w.ticket.entry ∈ s.settle.1.controller.occupied) :
    s.settle.1.waits[i]? = some { w with phase := .admitted true none } := by
  have hrest := atRest_settle h.orderly
  obtain ⟨w', hw', hbecomes⟩ := ((turns_settle s).follows h.orderly).waits i w hw
  obtain ⟨ids, hids⟩ : ∃ ids, s.settle.1 = (s.evaluateAll ids).1 := h.exists_settleRounds_eq _
  obtain ⟨l, hl⟩ := id h.orderly
  obtain ⟨l', hl', hadmits⟩ := h.admits ids hl
  rw [← hids] at hl'
  have hwaiting := (hl.place_eq_waiting_iff hw).mpr hpending
  rcases hbecomes with rfl | ⟨-, o, rfl⟩
  · -- At rest nobody waits for an entry that he could share.
    have hfree := (hrest.refuses hl' hw' hpending).2.1
    rw [Controller.mem_occupied_iff, hfree] at hoccupied
    exact absurd hoccupied Bool.false_ne_true
  · cases o with
    | admitted => exact hw'
    | cancelled =>
      have hfits : l'.place w.ticket = .nowhere := hl'.fits i _ hw'
      rw [hadmits.nowhere_iff, hwaiting] at hfits
      exact absurd hfits (by decide)

/-- **More room lets more in.** After every run, let the capacity be changed to one of two, of which
the second is at least as great as the first. Every call that is let in by the settling after the
first change is let in, at the same clock, by the settling after the second; and every entry that is
occupied then is occupied in the other case as well. -/
theorem more_room_lets_more_in (capacity : Capacity) (linger : Span) (steps : List Step)
    {c₁ c₂ : Capacity} (hle : c₁ ≤ c₂) :
    let s := ((new capacity linger).run steps).1
    let small := s.step (.setCapacity c₁)
    let large := s.step (.setCapacity c₂)
    (∀ x ∈ small.2.settled, x.outcome = .admitted → x ∈ large.2.settled) ∧
      small.1.controller.occupied ⊆ large.1.controller.occupied := by
  intro s small large
  have hs : s.Orderly := (orderly_new capacity linger).run steps
  have hrest : s.AtRest := (atRest_new capacity linger).run (orderly_new capacity linger) steps
  have hcalm : s.Calm := hrest.calm (noneDue_run steps) hs
  have hsubset := occupied_settle_subset hcalm hle
  obtain ⟨hend, hsettled⟩ := s.step_setCapacity c₁
  obtain ⟨hend', hsettled'⟩ := s.step_setCapacity c₂
  simp only [small, large, hend, hend', hsettled, hsettled']
  refine ⟨fun x hx hadmitted => ?_, hsubset⟩
  obtain ⟨hclock, v, hv, hpending, hafter⟩ := (mem_settled_setCapacity_iff hs c₁).mp hx
  rw [hadmitted] at hafter
  have hs₁ := (turns_settle (s.withCapacity c₁)).orderly (hcalm.withCapacity c₁).orderly
  have hoccupied := mem_occupied_of_admitted hs₁ hafter rfl
  refine (mem_settled_setCapacity_iff hs c₂).mpr ⟨hclock, v, hv, hpending, ?_⟩
  rw [hadmitted]
  exact (hcalm.withCapacity c₂).admitted_of_occupied hv hpending (hsubset hoccupied)

/-- One slot is taken, and three calls wait for two more entries. With a second slot the call of the
higher class gets it. With a third one, the two of the lower class come in after it, of whom the
later one is let in first, since the earlier one was looked at before it was its class's turn. -/
theorem more_room_lets_more_in_two_classes :
    let a : Entry := ⟨"udp", "", "a"⟩
    let b : Entry := ⟨"udp", "", "b"⟩
    let d : Entry := ⟨"udp", "", "d"⟩
    let low : Priority := ⟨-1, by decide, by decide⟩
    let steps := [.wait a "x" .standard "k" none, .wait d "x" low "k" none,
      .wait b "x" .standard "k" none, .wait d "x" low "k" none]
    let s := ((new (.limited 1) .zero).run steps).1
    let small := s.step (.setCapacity (.limited 2))
    let large := s.step (.setCapacity (.limited 3))
    small.2.settled = [⟨2, .admitted, 0⟩] ∧
      large.2.settled = [⟨2, .admitted, 0⟩, ⟨3, .admitted, 0⟩, ⟨1, .admitted, 0⟩] ∧
      small.1.controller.occupied ⊆ large.1.controller.occupied := by
  intro a b d low steps s small large
  have hfacts : small.2.settled = [⟨2, .admitted, 0⟩] ∧
      large.2.settled = [⟨2, .admitted, 0⟩, ⟨3, .admitted, 0⟩, ⟨1, .admitted, 0⟩] := by
    subst small large s steps low d b a
    decide_cbv
  have hle : Capacity.limited 2 ≤ .limited 3 := show (2 : UInt64) ≤ 3 by decide
  obtain ⟨-, hsubset⟩ := more_room_lets_more_in (.limited 1) .zero steps hle
  have hs : ((new (.limited 1) .zero).run steps).1 = s := rfl
  rw [hs] at hsubset
  clear_value s
  exact ⟨hfacts.1, hfacts.2, hsubset⟩

end Session

end Admission
