import Admission.Proofs.FirstRelease

/-!
# A policy that fails does no harm

A policy is somebody else's code, and it is run at the moment of a release. What it does then is to
give an answer or none, and there is nothing that could not be the answer
(`Session.exists_policy`). So it is said here for each answer what the three ways to release make of
it:

> who keeps a handle learns that there was no answer, and nothing has happened; who drops one
> does not learn it, and the slot is freed after the default linger; and who loses one does not ask.

Nothing is half done: a handle whose release has failed is as it was, and can be released
when there is an answer.
-/

set_option autoImplicit false

namespace Admission.Session

variable {s : Session} {what : Step} {i : Nat} {w : Wait}

/-- A policy can give any answer for a call, and none. -/
theorem exists_policy (s : Session) (w : Wait) (answer : Option Span) :
    ∃ p, ((s.withPolicy p).askPolicy w).toOption = answer := by
  cases answer with
  | some L => exact ⟨.constant L, rfl⟩
  | none =>
    refine ⟨⟨.zero, [], [w.ticket.entry.protocol], false⟩, ?_⟩
    simp [withPolicy, withController, askPolicy, Controller.apply, Policy.ask, Except.toOption]

/-! ## The first release, by its way and the answer -/

section Perform

variable (hw : s.held? i = some w) (hrelease : w.release? = none)
include hw hrelease

theorem perform_finish_of_error {f : PolicyFailure} (hask : s.askPolicy w = .error f)
    (hwhat : what = .finish i ∨ what = .finishDetached i) :
    s.perform what = (s, .failed (.policyFailed f), []) := by
  simp only [perform_finish hwhat, withHandle, hw, finishBy, hrelease, hask, Reply.ofFailure]

theorem perform_finish_of_ok {L : Span} (hask : s.askPolicy w = .ok L)
    (hwhat : what = .finish i ∨ what = .finishDetached i) :
    (s.perform what).1 =
        s.setPhase w.ticket.id (.admitted true (some (releaseAt s.clock what.sleep L))) ∧
      (s.perform what).2.1 = .nothing := by
  simp only [perform_finish hwhat, withHandle, hw, finishBy, hrelease, hask, release,
    releaseAfter_eq, Reply.ofFailure, and_self]

theorem perform_drop :
    (s.perform (.drop i)).1 = s.setPhase w.ticket.id (.admitted false
        (some (releaseAt s.clock .timer ((s.askPolicy w).toOption.getD s.fallback)))) ∧
      (s.perform (.drop i)).2.1 = .nothing := by
  simp only [perform, withHandle, hw, drop, hrelease]
  cases s.askPolicy w with
  | ok L => exact ⟨rfl, trivial⟩
  | error f => exact ⟨rfl, trivial⟩

theorem perform_lose :
    (s.perform (.lose i)).1 =
        s.setPhase w.ticket.id (.admitted false (some (releaseAt s.clock .timer s.fallback))) ∧
      (s.perform (.lose i)).2.1 = .failed .callerFailed := by
  simp only [perform, withHandle, hw, lose, hrelease]
  exact ⟨rfl, trivial⟩

end Perform

/-- Who loses a handle does not ask the policy: with another one in place he does just the same. -/
theorem perform_lose_withPolicy (s : Session) (i : Nat) (p : Policy) :
    (s.withPolicy p).perform (.lose i) =
      ((s.perform (.lose i)).1.withPolicy p, (s.perform (.lose i)).2) := by
  have hheld : (s.withPolicy p).held? i = s.held? i := rfl
  simp only [perform, withHandle, hheld]
  cases s.held? i with
  | none => rfl
  | some w =>
    simp only [lose]
    cases w.release? with
    | none => rfl
    | some r => rfl

/-- What a request has made of a settled call, the settling after it leaves so. -/
theorem getElem?_step_of_perform {phase : Phase} (hs : s.Orderly) (hw : s.waits[i]? = some w)
    (hsettled : phase ≠ .pending) (hperform : (s.perform what).1 = s.setPhase w.ticket.id phase) :
    (s.step what).1.waits[i]? = some { w with phase := phase } := by
  have hperformed := (replays_perform s what).orderly hs
  have hget : (s.perform what).1.waits[i]? = some { w with phase := phase } := by
    rw [hperform, getElem?_setPhase, if_pos (hs.id_eq hw), hw]
    rfl
  obtain ⟨w', hw', hbecomes⟩ := ((turns_settle _).follows hperformed).waits i _ hget
  obtain rfl := hbecomes.eq_of_ne_pending hsettled
  exact hw'

/-- **A policy that fails does no harm.** After every run, let a caller hold a handle that was not
released, and let a policy answer for it as it may; there is a policy for each answer. If it gives
none, the caller who would keep the handle is told so, and the session is exactly as it was; and
when a policy answers, the handle can be released. If it gives one, the handle is released with it.
Who drops the handle releases it in any case, with the answer or else the default linger. Who loses
it releases it with the default linger, and the policy is not asked. -/
theorem failing_policy_does_no_harm (capacity : Capacity) (linger : Span) (steps : List Step) :
    let r := (new capacity linger).run steps
    ∀ (i : Nat) (w : Wait), r.1.waits[i]? = some w → w.isHeld = true → w.view.isDone = false →
      ∀ answer : Option Span,
        (∃ p, ((r.1.withPolicy p).askPolicy w).toOption = answer) ∧
        ∀ p,
          let s := r.1.withPolicy p
          let released := fun (held : Bool) (what : Step) (L : Span) =>
            some { w with phase := .admitted held (some (releaseAt s.clock what.sleep L)) }
          (s.askPolicy w).toOption = answer →
          (∀ what, what = .finish i ∨ what = .finishDetached i →
            (answer = none →
              (s.step what).1 = s ∧ (s.step what).2.events = [] ∧
              (∃ f, s.askPolicy w = .error f ∧
                (s.step what).2.reply = .failed (.policyFailed f)) ∧
              ∀ q L, ((s.step what).1.withPolicy q).askPolicy w = .ok L →
                (((s.step what).1.withPolicy q).step (.finish i)).1.waits[i]? =
                  released true (.finish i) L) ∧
            ∀ L, answer = some L →
              (s.step what).1.waits[i]? = released true what L ∧
                (s.step what).2.reply = .nothing) ∧
          ((s.step (.drop i)).1.waits[i]? = released false (.drop i) (answer.getD linger) ∧
            (s.step (.drop i)).2.reply = .nothing) ∧
          ((s.step (.lose i)).1.waits[i]? = released false (.lose i) linger ∧
            (s.step (.lose i)).2.reply = .failed .callerFailed ∧
            ∀ q, (s.withPolicy q).perform (.lose i) =
              ((s.perform (.lose i)).1.withPolicy q, (s.perform (.lose i)).2)) := by
  intro r i w hw hheld hnot answer
  refine ⟨exists_policy _ w answer, fun p => ?_⟩
  intro s released hanswer
  have hs : s.Orderly := ((orderly_new capacity linger).run steps).withPolicy p
  have hrest : s.AtRest := (atRest_new capacity linger).run (orderly_new capacity linger) steps
  have hnone : s.NoneDue := noneDue_run steps
  have hfallback : s.fallback = linger := invariant_fallback.run rfl steps
  have hget : s.waits[i]? = some w := hw
  have hhandle : s.held? i = some w := held?_eq_some_iff.mpr ⟨hget, hheld⟩
  have hrelease : w.release? = none := by simpa [Wait.view] using hnot
  refine ⟨fun what hwhat => ⟨fun hfails => ?_, fun L hL => ?_⟩, ⟨?_, ?_⟩, ?_, ?_, ?_⟩
  · obtain ⟨f, hf⟩ := toOption_eq_none_iff.mp (hanswer.trans hfails)
    have hperform := perform_finish_of_error hhandle hrelease hf hwhat
    obtain ⟨hsame, hreply, hevents⟩ := step_of_perform hperform hrest hnone
    refine ⟨hsame, hevents, ⟨f, hf, hreply⟩, fun q L hq => ?_⟩
    rw [hsame] at hq ⊢
    have hlater := perform_finish_of_ok (s := s.withPolicy q) hhandle hrelease hq (Or.inl rfl)
    exact getElem?_step_of_perform (hs.withPolicy q) hget (by simp) hlater.1
  · have hok := toOption_eq_some_iff.mp (hanswer.trans hL)
    have hperform := perform_finish_of_ok hhandle hrelease hok hwhat
    exact ⟨getElem?_step_of_perform hs hget (by simp) hperform.1, hperform.2⟩
  · have hperform := (perform_drop hhandle hrelease).1
    rw [hanswer, hfallback] at hperform
    exact getElem?_step_of_perform hs hget (by simp) hperform
  · exact (perform_drop hhandle hrelease).2
  · have hperform := (perform_lose hhandle hrelease).1
    rw [hfallback] at hperform
    exact getElem?_step_of_perform hs hget (by simp) hperform
  · exact (perform_lose hhandle hrelease).2
  · exact fun q => perform_lose_withPolicy s i q

/-- A policy refuses to answer for a handle with a default linger of five milliseconds. To finish it
changes nothing, and to drop it frees the slot after five milliseconds. -/
theorem failing_policy_does_no_harm_refused :
    let a : Entry := ⟨"udp", "l", "a"⟩
    let w : Wait := ⟨⟨0, a, "", .standard⟩, "root", 0, none, .admitted true none⟩
    let refusing : Policy := ⟨⟨7000000⟩, [], ["udp"], false⟩
    let r := (new (.limited 1) ⟨5000000⟩).run [.wait a "" .standard "root" none, .advance 2]
    let s := r.1.withPolicy refusing
    r.1.waits[0]? = some w ∧ w.isHeld = true ∧ w.view.isDone = false ∧
      s.askPolicy w = .error (.refused a) ∧ (s.step (.finish 0)).1 = s ∧
      (s.step (.drop 0)).1.waits[0]? =
        some { w with phase := .admitted false (some (.ends 7000000 7000000)) } := by
  intro a w refusing r s
  have hfacts : r.1.waits[0]? = some w ∧ s.askPolicy w = .error (.refused a) ∧
      releaseAt s.clock .timer ⟨5000000⟩ = .ends 7000000 7000000 := by
    subst s r refusing w a
    decide_cbv
  have hcalls := failing_policy_does_no_harm (.limited 1) ⟨5000000⟩
    [.wait a "" .standard "root" none, .advance 2]
  have hrun :
      (new (.limited 1) ⟨5000000⟩).run [.wait a "" .standard "root" none, .advance 2] = r := rfl
  rw [hrun] at hcalls
  clear_value r
  obtain ⟨hw, hask, hrelease⟩ := hfacts
  obtain ⟨-, hall⟩ := hcalls 0 w hw rfl rfl none
  obtain ⟨hfinish, ⟨hdrop, -⟩, -⟩ := hall refusing (toOption_eq_none_iff.mpr ⟨_, hask⟩)
  refine ⟨hw, rfl, rfl, hask, ((hfinish (.finish 0) (Or.inl rfl)).1 rfl).1, ?_⟩
  rw [← hrelease]
  exact hdrop

end Admission.Session
