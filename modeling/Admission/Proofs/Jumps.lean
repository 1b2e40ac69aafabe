import Admission.Proofs.Cascade
import Admission.Proofs.Slicing

/-!
# A move of the clock ends

`Session.advance` grants itself a number of stops, and a number that is granted proves nothing: it
could run out. Here a move is said without it, as settling and jumping until no end lies ahead
before the target (`Session.Advances`), and the program's own move is shown to be one of these. It
jumps no more often than ends lie ahead when it begins, because

> settling sets no new end, and after a jump the end for which it was made does not lie ahead.

One jump may be for many ends: all those that are seen at the same millisecond.
-/

set_option autoImplicit false

namespace Admission

namespace Session

/-- A move of the clock to a target, with the readings to which it jumps on its way and what it
reports. The session settles before each jump and before it arrives. -/
inductive Advances (target : Nat) : Session → List Nat → List Event → Session → Prop
  | arrive {s : Session} (hstops : ∀ instant ∈ s.settle.1.future, target < millisOf instant) :
      Advances target s [] s.settle.2 { s.settle.1 with clock := target }
  | jump {s s' : Session} {stop : Nat} {stops : List Nat} {events : List Event}
      (hnext : s.settle.1.nextStop? = some stop) (hreach : stop ≤ target)
      (h : Advances target { s.settle.1 with clock := stop } stops events s') :
      Advances target s (stop :: stops) (s.settle.2 ++ events) s'

variable {s s' : Session} {target : Nat}

theorem clock_lt_millisOf {instant : Nat} (h : s.now < instant) : s.clock < millisOf instant := by
  rw [← not_le, millisOf_le_iff]
  exact not_le.mpr h

theorem future_settle_subset (hs : s.Orderly) : s.settle.1.future ⊆ s.future := by
  intro instant h
  obtain ⟨hend, hahead⟩ := mem_future_iff.mp h
  rw [now, clock_settle] at hahead
  exact mem_future_iff.mpr ⟨(turns_settle s).mem_ends hs hend, hahead⟩

/-- After a jump fewer ends lie ahead, and no others. -/
theorem future_jump_subset (hs : s.Orderly) {stop : Nat} (hle : s.clock ≤ stop) :
    ({ s.settle.1 with clock := stop } : Session).future ⊆ s.future := by
  intro instant h
  obtain ⟨hend, hahead⟩ := mem_future_clock_iff.mp h
  refine mem_future_iff.mpr ⟨(turns_settle s).mem_ends hs hend, ?_⟩
  exact (instantOfMillis_mono hle).trans_lt hahead

/-- The next stop is that of an end that lies ahead. -/
theorem exists_end_of_nextStop? (hs : s.Orderly) {stop : Nat}
    (hnext : s.settle.1.nextStop? = some stop) :
    s.clock < stop ∧ ∃ instant ∈ s.future, millisOf instant = stop := by
  obtain ⟨⟨instant, hinstant, rfl⟩, -⟩ := nextStop?_eq_some_iff.mp hnext
  have hahead := future_settle_subset hs hinstant
  exact ⟨clock_lt_millisOf (mem_future_iff.mp hahead).2, instant, hahead, rfl⟩

/-- **The clock jumps forward, and each time to an end that lay ahead when the move began.** -/
theorem Advances.jumps {stops : List Nat} {events : List Event}
    (h : s.Advances target stops events s') (hs : s.Orderly) :
    stops.Pairwise (· < ·) ∧
      ∀ stop ∈ stops, s.clock < stop ∧ ∃ instant ∈ s.future, millisOf instant = stop := by
  induction h with
  | arrive _ => exact ⟨List.Pairwise.nil, by simp⟩
  | @jump s s' stop stops events hnext hreach _ ih =>
    obtain ⟨hforward, hfirst⟩ := exists_end_of_nextStop? hs hnext
    obtain ⟨hsorted, hlater⟩ := ih (((turns_settle s).orderly hs).atClock stop)
    refine ⟨List.pairwise_cons.mpr ⟨fun later h => (hlater later h).1, hsorted⟩, ?_⟩
    intro later h
    rcases List.mem_cons.mp h with rfl | h
    · exact ⟨hforward, hfirst⟩
    · obtain ⟨hafter, instant, hinstant, heq⟩ := hlater later h
      exact ⟨hforward.trans hafter, instant, future_jump_subset hs hforward.le hinstant, heq⟩

/-- Different jumps are for different ends. -/
theorem Advances.length_le {stops : List Nat} {events : List Event}
    (h : s.Advances target stops events s') (hs : s.Orderly) : stops.length ≤ s.future.card := by
  obtain ⟨hsorted, hends⟩ := h.jumps hs
  have hnodup : stops.Nodup := hsorted.imp fun h => h.ne
  have hsubset : stops.toFinset ⊆ s.future.image millisOf := by
    intro stop hstop
    obtain ⟨-, instant, hinstant, heq⟩ := hends stop (List.mem_toFinset.mp hstop)
    exact Finset.mem_image.mpr ⟨instant, hinstant, heq⟩
  rw [← List.toFinset_card_of_nodup hnodup]
  exact (Finset.card_le_card hsubset).trans Finset.card_image_le

theorem exists_advances_advanceStops {fuel : Nat} (hs : s.Orderly)
    (hfuel : s.future.card < fuel) :
    ∃ stops, s.Advances target stops (advanceStops fuel target s).2
      (advanceStops fuel target s).1 := by
  induction fuel generalizing s with
  | zero => exact absurd hfuel (Nat.not_lt_zero _)
  | succ fuel ih =>
    rcases exists_stop_or s.settle.1 target with hstops | ⟨stop, hnext, hreach⟩
    · rw [advanceStops_of_no_stop hstops]
      exact ⟨[], .arrive hstops⟩
    · have hless := (card_future_stop_lt hnext).trans_le (card_future_settle_le hs)
      obtain ⟨stops, hlater⟩ := ih (((turns_settle s).orderly hs).atClock stop)
        (hless.trans_le (Nat.le_of_lt_succ hfuel))
      rw [advanceStops_of_stop hnext hreach]
      exact ⟨stop :: stops, .jump hnext hreach hlater⟩

/-- The stops that the program grants its move are enough. -/
theorem exists_advances (hs : s.Orderly) (ms : Nat) :
    ∃ stops, s.Advances (s.clock + ms) stops (s.advance ms).2 (s.advance ms).1 :=
  exists_advances_advanceStops hs (card_future_lt s)

end Session

/-- **Wake-ups die out.** In any store, and so with any controller, in the counter and in a session
at any moment, let those who are due be looked at in any order, where everybody who waits is due
after a commit. Then no more end than wait, say `n`; there are at most `n * (n + 1) / 2` looks; and
one comes to where nobody is due. Settling a counter is one of these orders.

A move of a session's clock makes jumps that all go forward, each to an end of a linger or a
deadline that lay ahead when it began, and never more than there were such ends, because no end is
set on the way. -/
theorem wakeups_die_out :
    (∀ (σ : Type) (st : Store σ), DiesOut Store.Look Store.numLive st) ∧
    (∀ c : Counter, DiesOut Counter.Look Counter.numLive c ∧
      ∃ order, Looks Counter.Look c order (c.settle Counter.Job.isDue).2.length
          (c.settle Counter.Job.isDue).1 ∧
        (c.settle Counter.Job.isDue).1.evaluations = c.evaluations + order.length ∧
        (c.settle Counter.Job.isDue).1.Sleeps) ∧
    (∀ s : Session, s.Orderly → ∀ woken : Nat → Bool,
      DiesOut Session.Roused.Look Session.Roused.numWaiting ⟨s, woken⟩) ∧
    ∀ (capacity : Capacity) (linger : Span) (steps : List Step) (ms : Nat),
      let s := ((Session.new capacity linger).run steps).1
      s.Orderly ∧
        (∃ stops, s.Advances (s.clock + ms) stops (s.advance ms).2 (s.advance ms).1 ∧
          stops.Pairwise (· < ·) ∧
          (∀ stop ∈ stops, ∃ instant ∈ s.future, Session.millisOf instant = stop) ∧
          stops.length ≤ s.future.card) ∧
        ∀ instant ∈ (s.advance ms).1.ends, instant ∈ s.ends := by
  refine ⟨?_, ?_, ?_, ?_⟩
  · exact fun σ st => Store.loaded.diesOut trivial
  · intro c
    obtain ⟨order, hlooks⟩ := Counter.looks_passes (c.numLive + 1) c
    exact ⟨Counter.loaded.diesOut trivial, order, hlooks, Counter.evaluations_looks hlooks,
      Counter.sleeps_passes (Nat.lt_succ_self c.numLive)⟩
  · exact fun s hs woken => Session.Roused.loaded.diesOut hs
  · intro capacity linger steps ms s
    have hs : s.Orderly := (Session.orderly_new capacity linger).run steps
    obtain ⟨stops, hmove⟩ := Session.exists_advances hs ms
    obtain ⟨hsorted, hends⟩ := hmove.jumps hs
    refine ⟨hs, ⟨stops, hmove, hsorted, fun stop h => (hends stop h).2, hmove.length_le hs⟩, ?_⟩
    exact fun instant hend => (Session.turns_advance hs ms).mem_ends hs hend

/-- One slot, which lingers for two milliseconds. Of three calls the first has let it go, and the
two that wait are evaluated three times at most before both sleep. The clock stops once. -/
theorem wakeups_die_out_two_wait :
    let e : Nat → Entry := fun n => ⟨"udp", "", toString n⟩
    let steps : List Step := [.wait (e 0) "" .standard "" none, .wait (e 1) "" .standard "" none,
      .wait (e 2) "" .standard "" none, .finish 0]
    let s := ((Session.new (.limited 1) ⟨2000000⟩).run steps).1
    s.Orderly ∧ s.pendingIds = [1, 2] ∧ s.ends = [2000000] ∧
      (∀ order ended r, Looks Session.Roused.Look ⟨s, fun _ => true⟩ order ended r →
        order.length ≤ 3) ∧
      ∃ stops, s.Advances (s.clock + 5) stops (s.advance 5).2 (s.advance 5).1 ∧
        stops.length ≤ 1 := by
  intro e steps s
  have hpending : s.pendingIds = [1, 2] := by
    subst s steps e
    decide_cbv
  have hends : s.ends = [2000000] := by
    subst s steps e
    decide_cbv
  obtain ⟨-, -, hsessions, hmoves⟩ := wakeups_die_out
  have hmoved := hmoves (.limited 1) ⟨2000000⟩ steps 5
  have hrun : ((Session.new (.limited 1) ⟨2000000⟩).run steps).1 = s := rfl
  dsimp only at hmoved
  rw [hrun] at hmoved
  clear_value s
  obtain ⟨hs, ⟨stops, hmove, -, -, hlength⟩, -⟩ := hmoved
  refine ⟨hs, hpending, hends, fun order ended r hlooks => ?_, stops, hmove, ?_⟩
  · have hbound := (hsessions s hs fun _ => true).length_le hlooks
    rwa [Session.Roused.numWaiting, hpending] at hbound
  · refine hlength.trans ((List.toFinset_card_le _).trans ((List.length_filter_le _ _).trans ?_))
    exact (congrArg List.length hends).le

/-- Three jobs are looked at six times, which is as often as can be. -/
example :
    let job : Int64 → Counter.Job := fun n => ⟨.take n, true, true, false⟩
    ((⟨0, #[job 20, job 3, job (-5)], 0⟩ : Counter).settle Counter.Job.isDue).1.evaluations
      = 6 := by
  decide +kernel

end Admission
