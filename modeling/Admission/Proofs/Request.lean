import Admission.Proofs.Turn
import Admission.Session.Step

/-!
# What a caller asks for

A step is one request, and then turns of the session's own work. The request is a small thing: a
call is written down, a token is noted as cancelled, a call is given up, a handle is released or let
go, a setting is changed, or nothing happens at all. `Session.Request` has a case for each of these,
and says of the last when it applies:

> nothing happens to a call unless it is given up while it waits, or its handle is released for the
> first time, or the handle is let go.

There are four ways to release a handle, and they differ in two things only: in the linger
(`Session.lingerOf?`), and in who sleeps through it (`Step.sleep`).
-/

set_option autoImplicit false

namespace Admission

namespace Step

def IsCall : Step → Prop
  | .wait _ _ _ _ _ => True
  | _ => False

/-- The call whose handle the step releases, if it is there to be released. -/
def handle? : Step → Option Nat
  | .finish id => some id
  | .finishDetached id => some id
  | .drop id => some id
  | .lose id => some id
  | _ => none

/-- Who sleeps through the linger of a handle that the step releases. -/
def sleep : Step → Sleep
  | .finishDetached _ => .thread
  | _ => .timer

/-- Does the caller have its handle no longer after the step? -/
def letsGo : Step → Bool
  | .drop _ => true
  | .lose _ => true
  | _ => false

end Step

/-- Does the event only accompany another one, or the absence of one? -/
def Event.IsAside : Event → Prop
  | .releasedAgain _ => True
  | .droppedHeld _ => True
  | .policyFailed _ => True
  | _ => False

namespace Session

variable {s : Session}

/-- The linger of a release, by the way in which the handle is released: the policy's, and where the
policy gives no answer or is not asked, the fallback; but a handle that is kept is not released
without the policy's answer. -/
def lingerOf? (s : Session) (w : Wait) : Step → Option Span
  | .finish _ => (s.askPolicy w).toOption
  | .finishDetached _ => (s.askPolicy w).toOption
  | .drop _ => some ((s.askPolicy w).toOption.getD s.fallback)
  | .lose _ => some s.fallback
  | _ => none

/-- The step releases the handle of a call for the first time, with a linger. -/
def Releases (s : Session) (what : Step) (id : Nat) (linger : Span) : Prop :=
  what.handle? = some id ∧
    ∃ w, s.held? id = some w ∧ w.release? = none ∧ s.lingerOf? w what = some linger

/-- What a step asks for, and what is reported of it. -/
inductive Request (s : Session) : Step → Session → List Event → Prop
  | call (e : Entry) (reason : String) (priority : Priority) (token : String)
      (deadline : Option Span) :
      Request s (.wait e reason priority token deadline)
        (s.register (s.newWait e reason priority token deadline)) []
  | cancel (token : String) :
      Request s (.cancel token) { s with cancelledTokens := token :: s.cancelledTokens } []
  | abandon {id : Nat} {w : Wait} (hw : s.pending? id = some w) :
      Request s (.abandon id) (s.abandon w).1 (s.abandon w).2
  | release {what : Step} {id : Nat} {w : Wait} {linger : Span} {told : List Event}
      (hhandle : what.handle? = some id) (hw : s.held? id = some w) (hrelease : w.release? = none)
      (hlinger : s.lingerOf? w what = some linger) (htold : ∀ e ∈ told, e.IsAside) :
      Request s what (s.release w (!what.letsGo) what.sleep linger).1
        (told ++ (s.release w (!what.letsGo) what.sleep linger).2)
  | letGo {what : Step} {id : Nat} {w : Wait} {r : Release} (hhandle : what.handle? = some id)
      (hw : s.held? id = some w) (hrelease : w.release? = some r) (hgo : what.letsGo = true) :
      Request s what (s.setPhase w.ticket.id (.admitted false (some r))) []
  | setCapacity (c : Capacity) :
      Request s (.setCapacity c) (s.withController (s.controller.apply (.setCapacity c)))
        [.capacityChanged c]
  | setPolicy (p : Policy) :
      Request s (.setPolicy p) (s.withController (s.controller.apply (.setPolicy p))) []
  | nothing {what : Step} {told : List Event} (hcall : ¬ what.IsCall)
      (hcancel : ∀ token, what ≠ .cancel token)
      (habandon : ∀ id, what = .abandon id → s.pending? id = none)
      (hhandle : ∀ id w, what.handle? = some id → s.held? id = some w →
        what.letsGo = false ∧ (w.release? = none → s.lingerOf? w what = none))
      (htold : ∀ e ∈ told, e.IsAside) : Request s what s told

/-! ## Calls -/

/-- A new call is evaluated at once. -/
theorem turns_start (s : Session) {w : Wait} (hphase : w.phase = .pending) :
    Turns (s.register w) (s.start w).1 (s.start w).2 := by
  have hw : (s.register w).waits[s.waits.size]? = some w := by simp [register]
  have hfirst : Turns (s.register w) (s.start w).1 _ := .single (.evaluate hw hphase (Or.inr rfl))
  simp only [start, blockedEvents]
  cases (s.register w).controller.verdict w.ticket (s.isTokenCancelled w.token) with
  | blocked => exact .cons (.blocked _ w.ticket) hfirst
  | granted => exact hfirst
  | withdrawn => exact hfirst
  | orphaned => exact hfirst

theorem getElem?_of_pending? {id : Nat} {w : Wait} (h : s.pending? id = some w) :
    s.waits[id]? = some w ∧ w.phase = .pending := by
  unfold pending? at h
  cases hw : s.waits[id]? with
  | none => rw [hw] at h; cases h
  | some v =>
    simp only [hw, Option.ite_none_right_eq_some, Option.some.injEq, Wait.isPending_iff] at h
    obtain ⟨hphase, rfl⟩ := h
    exact ⟨rfl, hphase⟩

/-! ## Handles -/

theorem getElem?_of_held? {id : Nat} {w : Wait} (h : s.held? id = some w) :
    s.waits[id]? = some w ∧ w.phase = .admitted true w.release? := by
  unfold held? at h
  cases hw : s.waits[id]? with
  | none => rw [hw] at h; cases h
  | some v =>
    simp only [hw, Option.ite_none_right_eq_some, Option.some.injEq] at h
    obtain ⟨hheld, rfl⟩ := h
    exact ⟨rfl, Wait.phase_of_isHeld hheld⟩

theorem Request.noHandle {what : Step} {id : Nat} (hhandle : what.handle? = some id)
    (hheld : s.held? id = none) : Request s what s [] := by
  refine .nothing ?_ ?_ ?_ ?_ (by simp)
  · intro hcall
    cases what with
    | wait => cases hhandle
    | _ => exact hcall
  · rintro token rfl
    cases hhandle
  · rintro id' rfl
    cases hhandle
  · intro id' w hid hw
    obtain rfl := Option.some.inj (hhandle.symm.trans hid)
    rw [hheld] at hw
    cases hw

/-- If the system starts the thread, it sleeps through the linger. -/
theorem finishDetached_none (s : Session) (w : Wait) :
    s.finishDetached w none = s.finishBy w (s.release w true .thread) := by
  have hrelease : s.releaseDetached w none = s.release w true .thread := by
    funext linger
    unfold releaseDetached
    cases instantAfter s.now linger <;> rfl
  rw [finishDetached, hrelease]

/-- Whoever keeps the handle releases it in the same way, but for the sleep. -/
theorem perform_finish {id : Nat} {what : Step}
    (hwhat : what = .finish id ∨ what = .finishDetached id) :
    s.perform what = s.withHandle id fun w =>
      let (s', failure, events) := s.finishBy w (s.release w true what.sleep)
      (s', .ofFailure failure, events) := by
  rcases hwhat with rfl | rfl
  · rfl
  · simp only [perform, finishDetached_none, Step.sleep]

theorem request_finishBy {id : Nat} {w : Wait} {what : Step}
    (hwhat : what = .finish id ∨ what = .finishDetached id) (hw : s.held? id = some w) :
    Request s what (s.finishBy w (s.release w true what.sleep)).1
      (s.finishBy w (s.release w true what.sleep)).2.2 := by
  have hhandle : what.handle? = some id := by rcases hwhat with rfl | rfl <;> rfl
  have hkeeps : what.letsGo = false := by rcases hwhat with rfl | rfl <;> rfl
  have hlinger : s.lingerOf? w what = (s.askPolicy w).toOption := by
    rcases hwhat with rfl | rfl <;> rfl
  have hnothing : ∀ told : List Event, (∀ e ∈ told, e.IsAside) →
      (w.release? = none → s.lingerOf? w what = none) → Request s what s told := by
    intro told htold hno
    refine .nothing ?_ ?_ ?_ ?_ htold
    · rcases hwhat with rfl | rfl <;> simp [Step.IsCall]
    · rcases hwhat with rfl | rfl <;> simp
    · rcases hwhat with rfl | rfl <;> simp
    · intro id' w' hid hw'
      obtain rfl := Option.some.inj (hhandle.symm.trans hid)
      obtain rfl := Option.some.inj (hw.symm.trans hw')
      exact ⟨hkeeps, hno⟩
  unfold finishBy
  cases hrelease : w.release? with
  | some r => exact hnothing _ (by simp [Event.IsAside]) (by simp [hrelease])
  | none =>
    cases hask : s.askPolicy w with
    | error f => exact hnothing _ (by simp) (fun _ => by rw [hlinger, hask]; rfl)
    | ok linger =>
      rw [hask] at hlinger
      have hreq : Request s what _ ([] ++ _) := .release hhandle hw hrelease hlinger (by simp)
      rwa [hkeeps] at hreq

theorem request_drop {id : Nat} {w : Wait} (hw : s.held? id = some w) :
    Request s (.drop id) (s.drop w).1 (s.drop w).2 := by
  unfold drop
  cases hrelease : w.release? with
  | some r => exact .letGo rfl hw hrelease rfl
  | none =>
    have hlinger : s.lingerOf? w (.drop id) = some ((s.askPolicy w).toOption.getD s.fallback) := rfl
    cases hask : s.askPolicy w with
    | error f =>
      rw [hask] at hlinger
      have htold : ∀ e ∈ [Event.droppedHeld w.ticket, .policyFailed w.ticket], e.IsAside := by
        simp [Event.IsAside]
      exact .release rfl hw hrelease hlinger htold
    | ok linger =>
      rw [hask] at hlinger
      have htold : ∀ e ∈ [Event.droppedHeld w.ticket], e.IsAside := by simp [Event.IsAside]
      exact .release rfl hw hrelease hlinger htold

theorem request_lose {id : Nat} {w : Wait} (hw : s.held? id = some w) :
    Request s (.lose id) (s.lose w).1 (s.lose w).2 := by
  unfold lose
  cases hrelease : w.release? with
  | some r => exact .letGo rfl hw hrelease rfl
  | none =>
    have htold : ∀ e ∈ [Event.droppedHeld w.ticket], e.IsAside := by simp [Event.IsAside]
    exact .release rfl hw hrelease rfl htold

/-! ## All steps -/

theorem request_finishStep {id : Nat} {what : Step}
    (hwhat : what = .finish id ∨ what = .finishDetached id) :
    Request s what (s.perform what).1 (s.perform what).2.2 := by
  simp only [perform_finish hwhat, withHandle]
  cases hheld : s.held? id with
  | none =>
    refine .noHandle ?_ hheld
    rcases hwhat with rfl | rfl <;> rfl
  | some w => exact request_finishBy hwhat hheld

theorem Request.question {what : Step} (hcall : ¬ what.IsCall)
    (hcancel : ∀ token, what ≠ .cancel token) (habandon : ∀ id, what ≠ .abandon id)
    (hhandle : what.handle? = none) : Request s what s [] := by
  refine .nothing hcall hcancel (fun id h => absurd h (habandon id)) ?_ (by simp)
  intro id w hid
  rw [hhandle] at hid
  cases hid

/-- **A step that does not move the clock** is a request, and turns after it if it is a call. -/
theorem request_perform (what : Step) (hclock : ∀ ms, what ≠ .advance ms) :
    ∃ s₁ told later, Request s what s₁ told ∧ Turns s₁ (s.perform what).1 later ∧
      (s.perform what).2.2 = told ++ later := by
  have hall : ∀ {s₁ told}, Request s what s₁ told → (s.perform what).1 = s₁ →
      (s.perform what).2.2 = told → ∃ s₁ told later, Request s what s₁ told ∧
        Turns s₁ (s.perform what).1 later ∧ (s.perform what).2.2 = told ++ later := by
    rintro s₁ told hreq rfl rfl
    exact ⟨_, _, [], hreq, .refl _, (List.append_nil _).symm⟩
  cases what with
  | wait e reason priority token deadline =>
    exact ⟨_, [], _, .call e reason priority token deadline, turns_start s rfl, rfl⟩
  | cancel token => exact hall (.cancel token) rfl rfl
  | abandon id =>
    cases hpending : s.pending? id with
    | some w =>
      refine hall (.abandon hpending) ?_ ?_
      · simp only [perform, hpending]
      · simp only [perform, hpending]
    | none =>
      have hreq : Request s (.abandon id) s [] := by
        refine .nothing (fun h => h) (by simp) ?_ (by simp [Step.handle?]) (by simp)
        intro id' hid
        obtain rfl := Step.abandon.inj hid
        exact hpending
      refine hall hreq ?_ ?_
      · simp only [perform, hpending]
      · simp only [perform, hpending]
  | finish id => exact hall (request_finishStep (Or.inl rfl)) rfl rfl
  | finishDetached id => exact hall (request_finishStep (Or.inr rfl)) rfl rfl
  | drop id =>
    cases hheld : s.held? id with
    | none =>
      refine hall (.noHandle rfl hheld) ?_ ?_
      · simp only [perform, withHandle, hheld]
      · simp only [perform, withHandle, hheld]
    | some w =>
      refine hall (request_drop hheld) ?_ ?_
      · simp only [perform, withHandle, hheld]
      · simp only [perform, withHandle, hheld]
  | lose id =>
    cases hheld : s.held? id with
    | none =>
      refine hall (.noHandle rfl hheld) ?_ ?_
      · simp only [perform, withHandle, hheld]
      · simp only [perform, withHandle, hheld]
    | some w =>
      refine hall (request_lose hheld) ?_ ?_
      · simp only [perform, withHandle, hheld]
      · simp only [perform, withHandle, hheld]
  | view id =>
    refine hall (.question (fun h => h) (by simp) (by simp) rfl) ?_ ?_
    · simp only [perform, withHandle]
      split <;> rfl
    · simp only [perform, withHandle]
      split <;> rfl
  | advance ms => exact absurd rfl (hclock ms)
  | setCapacity c => exact hall (.setCapacity c) rfl rfl
  | setPolicy p => exact hall (.setPolicy p) rfl rfl
  | capacity => exact hall (.question (fun h => h) (by simp) (by simp) rfl) rfl rfl
  | waitingFor e => exact hall (.question (fun h => h) (by simp) (by simp) rfl) rfl rfl
  | statusJson => exact hall (.question (fun h => h) (by simp) (by simp) rfl) rfl rfl
  | statusText => exact hall (.question (fun h => h) (by simp) (by simp) rfl) rfl rfl
  | debug => exact hall (.question (fun h => h) (by simp) (by simp) rfl) rfl rfl

end Session

end Admission
