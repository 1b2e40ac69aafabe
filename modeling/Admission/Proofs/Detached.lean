import Admission.Proofs.Expiries
import Admission.Proofs.FailingPolicy
import Admission.Proofs.Slicing

/-!
# Handles that are finished outside the scheduler

A handle can be finished where there is no scheduler. Its caller is told the same as within it, and
the same is reported; only somebody else sleeps through the linger. A timer of the scheduler may end
before the linger does. A thread does not, so from outside

> a slot is used until the end that was announced, however long the linger is.

But a thread has to be started first, and a system can refuse it. Nobody would free the slot then,
and so it is freed at once, while the handle goes on telling the end of a linger through which
nobody sleeps (`Session.finishDetached_of_refused`).
-/

set_option autoImplicit false

namespace Admission.Session

variable {s : Session} {i : Nat} {w : Wait} {L : Span}

/-! ## Within the scheduler and outside -/

/-- A caller does not notice where it finishes its handle, and what is reported is the same. -/
theorem perform_finishDetached_snd (s : Session) (i : Nat) :
    (s.perform (.finishDetached i)).2 = (s.perform (.finish i)).2 := by
  rw [perform_finish (Or.inr rfl), perform_finish (Or.inl rfl), withHandle, withHandle]
  cases s.held? i with
  | none => rfl
  | some w =>
    simp only [finishBy]
    cases w.release? with
    | some r => rfl
    | none => cases s.askPolicy w <;> rfl

/-- How a handle is released matters only if it was not released before and has a linger. -/
theorem finishBy_congr {release release' : Span → Session × List Event}
    (h : w.release? = none → ∀ L, s.askPolicy w = .ok L → release L = release' L) :
    s.finishBy w release = s.finishBy w release' := by
  simp only [finishBy]
  cases hrelease : w.release? with
  | some r => rfl
  | none =>
    cases hask : s.askPolicy w with
    | error f => rfl
    | ok L => simp only [h hrelease L hask]

/-- With a linger that a timer can run, or one that never ends, there is no difference at all. -/
theorem perform_finishDetached_eq
    (h : ∀ w L, s.held? i = some w → s.askPolicy w = .ok L →
      instantBound ≤ s.now + L.nanos ∨ Sleep.timer.CanLast s.now L) :
    s.perform (.finishDetached i) = s.perform (.finish i) := by
  rw [perform_finish (Or.inr rfl), perform_finish (Or.inl rfl), withHandle, withHandle]
  cases hw : s.held? i with
  | none => rfl
  | some w =>
    have hsame : s.finishBy w (s.release w true .thread) =
        s.finishBy w (s.release w true .timer) := by
      refine finishBy_congr fun _ L hask => ?_
      have hafter : s.releaseAfter .thread L = s.releaseAfter .timer L := by
        rcases h w L hw hask with hbeyond | hlast
        · rw [releaseAfter, releaseAfter, instantAfter, if_neg (not_lt.mpr hbeyond)]
        · rw [releaseAfter, releaseAfter, hlast.endAfter_eq]
          rfl
      rw [release, release, hafter]
    simp only [Step.sleep, hsame]

theorem clock_step_of_finish {what : Step}
    (hwhat : what = .finish i ∨ what = .finishDetached i) : (s.step what).1.clock = s.clock := by
  have hperform : (s.perform what).1.clock = s.clock := (request_finishStep hwhat).clock_eq
  rw [step, clock_settle, hperform]

theorem clock_step_advance (s : Session) (ms : Nat) :
    (s.step (.advance ms)).1.clock = s.clock + ms := by
  rw [step, clock_settle, perform, advance, clock_advanceStops]

/-- **A thread sleeps through every linger.** After every run, let a caller finish a handle that it
had not released, with a linger that is the policy's, and let time go by. If it was finished within
the scheduler, the slot is used until the timer has ended; and if it was finished outside, until the
linger has. -/
theorem occupies_after_finish (capacity : Capacity) (linger : Span) (steps : List Step) :
    let s₀ := new capacity linger
    let s := (s₀.run steps).1
    ∀ (i : Nat) (w : Wait) (L : Span), s.waits[i]? = some w → w.isHeld = true →
      w.view.isDone = false → s.askPolicy w = .ok L → ∀ ms,
        (Occupies s₀ (steps ++ [.finish i, .advance ms]) i ↔
          instantBound ≤ s.now + L.nanos ∨
            instantOfMillis (s.clock + ms) < timerEnd s.now L) ∧
        (Occupies s₀ (steps ++ [.finishDetached i, .advance ms]) i ↔
          instantBound ≤ s.now + L.nanos ∨
            instantOfMillis (s.clock + ms) < s.now + L.nanos) := by
  intro s₀ s i w L hw hheld hnot hask ms
  have hhandle : s.held? i = some w := held?_eq_some_iff.mpr ⟨hw, hheld⟩
  have hrelease : w.release? = none := by simpa [Wait.view] using hnot
  have hends : ∀ what, what = .finish i ∨ what = .finishDetached i →
      (Occupies s₀ (steps ++ [what, .advance ms]) i ↔
        instantBound ≤ s.now + L.nanos ∨
          instantOfMillis (s.clock + ms) < what.sleep.endAfter s.now L) := by
    intro what hwhat
    have hreleases : s.Releases what i L :=
      (releases_iff hw).mpr ⟨hheld, hrelease, Or.inl ⟨hwhat, hask⟩⟩
    have hreleased : ReleasedBy s₀ (steps ++ [what, .advance ms]) i what s.clock L :=
      ⟨steps, [.advance ms], rfl, hreleases, rfl⟩
    have hnow : (s₀.run (steps ++ [what, .advance ms])).1.now =
        instantOfMillis (s.clock + ms) := by
      simp only [run_append, run, now, clock_step_advance, clock_step_of_finish hwhat, s]
    rw [hreleased.occupies_iff, hnow]
    rfl
  exact ⟨hends (.finish i) (Or.inl rfl), hends (.finishDetached i) (Or.inr rfl)⟩

/-- A linger of forty years keeps its slot for forty years if the handle is finished outside. -/
example :
    let L : Span := .ofWholeSeconds (40 * 365 * 86400)
    let steps := [.wait ⟨"udp", "l", "a"⟩ "" .standard "root" none, .finishDetached 0,
      .advance (40 * 365 * 86400 * 1000 - 1), .advance 1]
    ((new (.limited 1) L).run steps).2.map Answer.numEntries = [1, 1, 1, 0] := by decide_cbv

/-! ## A system that refuses the thread -/

/-- A release that begins no linger with an end asks for no thread. -/
theorem finishDetached_of_endless
    (h : w.release? = none → ∀ L, s.askPolicy w = .ok L → instantAfter s.now L = none)
    (refused : Option String) : s.finishDetached w refused = s.finishDetached w none := by
  refine finishBy_congr fun hrelease L hask => ?_
  simp only [releaseDetached, h hrelease L hask]

/-- A ticket that lingers can be taken from its entry before the time. It does not come back, no
other ticket is touched, and what is reported says truly whether the entry was freed. -/
theorem expire_of_lingering (hs : s.Orderly) (hw : s.waits[i]? = some w) {instant : Nat}
    (hend : s.lingerEnd? w = some instant) :
    let r := s.expire w.ticket
    r.1.Orderly ∧ (∀ rest, (r.1.run rest).1.Gone i) ∧
      (∀ t, t.id ≠ i → r.1.controller.holds t = s.controller.holds t) ∧
      ∃ freed, r.2 = [.expired w.ticket freed] ∧
        (freed = true ↔ s.controller.isOccupied w.ticket.entry = true ∧
          r.1.controller.isOccupied w.ticket.entry = false) := by
  intro r
  have horderly : r.1.Orderly := (replays_expire hw hend).orderly hs
  obtain ⟨-, announced, hrelease⟩ := lingerEnd?_eq_some_iff.mp hend
  obtain ⟨held, hphase⟩ := Wait.phase_of_release? hrelease
  have hgone : r.1.Gone i := ⟨w, hw, by simp [hphase], Controller.holds_expire_self _ _⟩
  refine ⟨horderly, fun rest => (invariant_gone i).later horderly hgone rest, ?_,
    s.controller.wouldFree w.ticket, rfl, Controller.wouldFree_eq_true_iff⟩
  intro t ht
  have hexpire : ∀ u, Transaction.expire w.ticket = .expire u → u.id ≠ t.id := by
    rintro u hu
    obtain rfl := Transaction.expire.inj hu
    rw [hs.id_eq hw]
    exact ht.symm
  exact Controller.holds_apply_eq hexpire (by simp)

/-- **If the system refuses the thread, the slot is freed at once.** The caller is told of no
failure, and its handle is released: it tells the end of the linger, as always. But the ticket is
gone from its entry and does not come back, whatever is done afterwards. No other ticket is touched;
and what is reported says truly whether the entry was freed. -/
theorem finishDetached_of_refused (hs : s.Orderly) (hw : s.held? i = some w)
    (hrelease : w.release? = none) (hask : s.askPolicy w = .ok L) {announced : Nat}
    (hends : instantAfter s.now L = some announced) (error : String) :
    let r := s.finishDetached w (some error)
    r.1.Orderly ∧ r.2.1 = none ∧
      (∃ w', r.1.waits[i]? = some w' ∧ w'.view.isDone = true ∧
        w'.view.expires = some announced) ∧
      (∀ rest, (r.1.run rest).1.Gone i) ∧
      (∀ t, t.id ≠ i → r.1.controller.holds t = s.controller.holds t) ∧
      ∃ freed, r.2.2 = [.released w.ticket L, .threadRefused w.ticket error,
          .expired w.ticket freed] ∧
        (freed = true ↔ s.controller.isOccupied w.ticket.entry = true ∧
          r.1.controller.isOccupied w.ticket.entry = false) := by
  intro r
  obtain ⟨hget, hphase⟩ := getElem?_of_held? hw
  rw [hrelease] at hphase
  -- The handle is released first, as with a thread that sleeps.
  let released := (s.release w true .thread L).1
  have hr : r = ((released.expire w.ticket).1, none, (s.release w true .thread L).2 ++
      .threadRefused w.ticket error :: (released.expire w.ticket).2) := by
    simp only [r, finishDetached, finishBy, hrelease, hask, releaseDetached, hends, released]
  have hreleased : released.Orderly := by
    have hrequest : Request s (.finishDetached i) released
        ([] ++ (s.release w true .thread L).2) :=
      .release rfl hw hrelease (by rw [lingerOf?, hask]; rfl) (by simp)
    exact hrequest.replays.orderly hs
  -- What is done for want of a thread is what the thread would have done at the end.
  let w' : Wait := { w with phase := .admitted true (some (.ends announced (s.now + L.nanos))) }
  have hget' : released.waits[i]? = some w' := by
    show (s.setPhase w.ticket.id _).waits[i]? = _
    rw [getElem?_setPhase, if_pos (hs.id_eq hget), hget, releaseAfter, hends]
    rfl
  have hholds : s.controller.holds w.ticket = true := holds_of_not_released hs hget hphase
  have hend : released.lingerEnd? w' = some (s.now + L.nanos) :=
    lingerEnd?_eq_some_iff.mpr ⟨hholds, announced, rfl⟩
  obtain ⟨horderly, hgone, hothers, freed, htold, hfreed⟩ :=
    expire_of_lingering hreleased hget' hend
  rw [hr]
  refine ⟨horderly, rfl, ⟨w', hget', rfl, rfl⟩, hgone, hothers, freed, ?_, hfreed⟩
  simp only [release, releaseEvents, hends]
  exact congrArg ([.released w.ticket L, .threadRefused w.ticket error] ++ ·) htold

end Admission.Session
