import Admission.Proofs.FirstRelease
import Admission.Proofs.Renaming
import Mathlib.Tactic.FinCases

/-!
# Names do not matter

A run is repeated under other names: every call is made for another entry, with another priority and
another reason, such that different entries stay different and higher priorities stay higher. Then
everything happens as before. The same calls are settled, in the same order and with the same
outcomes at the same clocks, and the slots are freed at the same instants:

> whatever a session does next, two sessions that differ in names only do it both, and differ in
> names only afterwards.

This is shown for each thing that a session does, from one evaluation to a whole run. The policy is
the one part of it that looks at a name, and it looks at the protocol only, which therefore has to
stay.
-/

set_option autoImplicit false

namespace Admission

/-! ## Without the names -/

/-- An entry that stands for all of them. -/
def Entry.nameless : Entry := ⟨"", "", ""⟩

/-- A ticket of which only the number is told. -/
def Ticket.unnamed (t : Ticket) : Ticket := ⟨t.id, .nameless, "", .standard⟩

/-- An event of which everything is told but the names in its ticket. -/
def Event.unnamed : Event → Event
  | .admitted t clock waited => .admitted t.unnamed clock waited
  | .cancelled t clock waited => .cancelled t.unnamed clock waited
  | .abandoned t => .abandoned t.unnamed
  | .released t linger => .released t.unnamed linger
  | .endless t linger => .endless t.unnamed linger
  | .threadRefused t error => .threadRefused t.unnamed error
  | .expired t freed => .expired t.unnamed freed
  | .droppedHeld t => .droppedHeld t.unnamed
  | .releasedAgain t => .releasedAgain t.unnamed
  | .policyFailed t => .policyFailed t.unnamed
  | .capacityChanged c => .capacityChanged c
  | .blocked t => .blocked t.unnamed
  | .deadlineReached t deadline => .deadlineReached t.unnamed deadline

/-- A failure of which it is not told for which entry the policy refused to answer. -/
def Failure.unnamed : Failure → Failure
  | .policyFailed (.refused _) => .policyFailed (.refused .nameless)
  | f => f

/-- A handle's answers but for the names. -/
def HandleView.unnamed (v : HandleView) : HandleView :=
  { v with entry := .nameless, reason := "", priority := .standard }

/-- A result of a step but for names. Texts are full of names. -/
def Reply.unnamed : Reply → Reply
  | .failed f => .failed f.unnamed
  | .handle v => .handle v.unnamed
  | .text _ => .text ""
  | r => r

/-- The answers tell the same but for names: the same calls are settled, in the same order and at
the same clocks, the counts are the same, and so is the result, with the capacity, the number of
those who wait for an entry and the instants that a handle tells. -/
structure Answer.SameButNames (a a' : Answer) : Prop where
  settled : a'.settled = a.settled
  numEntries : a'.numEntries = a.numEntries
  numWaiting : a'.numWaiting = a.numWaiting
  numHolders : a'.numHolders = a.numHolders
  reply : a'.reply.unnamed = a.reply.unnamed
  events : a'.events.map Event.unnamed = a.events.map Event.unnamed

theorem Event.settled?_unnamed (e : Event) : e.unnamed.settled? = e.settled? := by
  cases e <;> rfl

theorem filterMap_settled?_eq {events events' : List Event}
    (h : events'.map Event.unnamed = events.map Event.unnamed) :
    events'.filterMap Event.settled? = events.filterMap Event.settled? := by
  have hunnamed : Event.settled? ∘ Event.unnamed = Event.settled? :=
    funext Event.settled?_unnamed
  rw [← hunnamed, ← List.filterMap_map, ← List.filterMap_map, h]

namespace Renaming

/-- The step under its new names. -/
inductive Steps (R : Renaming) : Step → Step → Prop
  | wait {e : Entry} {priority : Priority} (he : e ∈ R.entries) (hp : priority ∈ R.priorities)
      (reason reason' token : String) (deadline : Option Span) :
      Steps R (.wait e reason priority token deadline)
        (.wait (R.entry e) reason' (R.priority priority) token deadline)
  | waitingFor {e : Entry} (he : e ∈ R.entries) : Steps R (.waitingFor e) (.waitingFor (R.entry e))
  | other {what : Step} (hcall : ¬ what.IsCall) (hask : ∀ e, what ≠ .waitingFor e) :
      Steps R what what

/-- Two sessions that differ in names only. -/
structure Twins (R : Renaming) (s s' : Session) : Prop where
  alike : R.Alike s s'
  left : s.Orderly
  right : s'.Orderly

/-- Two sessions have done the same but for names: they differ in names only, and so do their
reports. -/
structure DoSame (R : Renaming) (r r' : Session × List Event) : Prop where
  twins : R.Twins r.1 r'.1
  events : r'.2.map Event.unnamed = r.2.map Event.unnamed

variable {R : Renaming} {s s' : Session} {w w' : Wait} {i : Nat}

theorem Tickets.unnamed_eq {t t' : Ticket} (h : R.Tickets t t') : t'.unnamed = t.unnamed := by
  rw [Ticket.unnamed, Ticket.unnamed, h.id]

/-! ## Settling -/

namespace Twins

theorem doNothing (h : R.Twins s s') : R.DoSame (s, []) (s', []) := ⟨h, rfl⟩

theorem expireIfDue (h : R.Twins s s') (id : Nat) :
    R.DoSame (s.expireIfDue id) (s'.expireIfDue id) := by
  suffices h' : R.Alike (s.expireIfDue id).1 (s'.expireIfDue id).1 ∧
      (s'.expireIfDue id).2.map Event.unnamed = (s.expireIfDue id).2.map Event.unnamed from
    ⟨⟨h'.1, (Session.turns_expireIfDue s id).orderly h.left,
      (Session.turns_expireIfDue s' id).orderly h.right⟩, h'.2⟩
  unfold Session.expireIfDue
  rcases h.alike.calls_cases id with ⟨hw, hw'⟩ | ⟨w, w', hw, hw', hcalls, hholds⟩
  · rw [hw, hw']
    exact ⟨h.alike, rfl⟩
  · simp only [hw, hw', Alike.lingerEnd?_eq hcalls hholds, h.alike.now_eq]
    cases hend : s.lingerEnd? w with
    | none => exact ⟨h.alike, rfl⟩
    | some instant =>
      have hholder := (Session.lingerEnd?_eq_some_iff.mp hend).1
      by_cases hdue : instant ≤ s.now
      · simp only [if_pos hdue, Session.expire, List.map_cons, List.map_nil, Event.unnamed,
          hcalls.tickets.unnamed_eq, h.alike.wouldFree_eq h.left h.right hw hw' hholder, and_true]
        exact h.alike.expire h.left h.right hw hw'
      · simp only [if_neg hdue, and_true]
        exact h.alike

theorem conclude (h : R.Twins s s') (hw : s.waits[i]? = some w) (hw' : s'.waits[i]? = some w')
    (hpending : w.phase = .pending) (cancelled : Bool) :
    R.DoSame (s.conclude w cancelled) (s'.conclude w' cancelled) := by
  have hcalls := (h.alike.calls hw hw').1
  have hverdict := h.alike.verdict_eq h.left h.right hcalls.tickets cancelled
  have hleft : s.Replays (fun _ => True) (s.conclude w cancelled).1 (s.conclude w cancelled).2 :=
    Session.replays_conclude hw hpending trivial
  have hright : s'.Replays (fun _ => True) (s'.conclude w' cancelled).1
      (s'.conclude w' cancelled).2 :=
    Session.replays_conclude hw' (hcalls.phase_eq.trans hpending) trivial
  suffices h' : R.Alike (s.conclude w cancelled).1 (s'.conclude w' cancelled).1 ∧
      (s'.conclude w' cancelled).2.map Event.unnamed =
        (s.conclude w cancelled).2.map Event.unnamed from
    ⟨⟨h'.1, hleft.orderly h.left, hright.orderly h.right⟩, h'.2⟩
  clear hleft hright
  cases hv : s.controller.verdict w.ticket cancelled with
  | granted =>
    have hv' := hverdict.trans hv
    simp only [Session.conclude, hv, hv', Controller.apply_evaluate_of_granted hv,
      Controller.apply_evaluate_of_granted hv', hcalls.tickets.id, h.alike.clock,
      h.alike.waited_eq hcalls]
    refine ⟨(h.alike.grant h.left h.right hw hw').setPhase _ _, ?_⟩
    simp only [List.map_cons, List.map_nil, Event.unnamed, hcalls.tickets.unnamed_eq]
  | withdrawn =>
    have hv' := hverdict.trans hv
    simp only [Session.conclude, hv, hv', Controller.apply_evaluate_of_withdrawn hv,
      Controller.apply_evaluate_of_withdrawn hv', hcalls.tickets.id, h.alike.clock,
      h.alike.waited_eq hcalls]
    refine ⟨(h.alike.withdraw _ _).setPhase _ _, ?_⟩
    simp only [List.map_cons, List.map_nil, Event.unnamed, hcalls.tickets.unnamed_eq]
  | blocked =>
    rw [Session.conclude_of_stays (Or.inl hv),
      Session.conclude_of_stays (Or.inl (hverdict.trans hv))]
    exact ⟨h.alike, rfl⟩
  | orphaned =>
    rw [Session.conclude_of_stays (Or.inr hv),
      Session.conclude_of_stays (Or.inr (hverdict.trans hv))]
    exact ⟨h.alike, rfl⟩

theorem evaluate (h : R.Twins s s') (id : Nat) : R.DoSame (s.evaluate id) (s'.evaluate id) := by
  unfold Session.evaluate
  rcases h.alike.calls_cases id with ⟨hw, hw'⟩ | ⟨w, w', hw, hw', hcalls, -⟩
  · rw [hw, hw']
    exact h.doNothing
  · simp only [hw, hw', hcalls.isPending_eq, h.alike.isCancelled_eq hcalls]
    split
    case isTrue hpending => exact h.conclude hw hw' (Wait.isPending_iff.mp hpending) _
    case isFalse => exact h.doNothing

theorem forEach {act : Session → Nat → Session × List Event}
    (hact : ∀ {s s' : Session}, R.Twins s s' → ∀ id, R.DoSame (act s id) (act s' id))
    (h : R.Twins s s') (ids : List Nat) :
    R.DoSame (Session.forEach act ids s) (Session.forEach act ids s') := by
  induction ids generalizing s s' with
  | nil => exact h.doNothing
  | cons id rest ih =>
    have hone := hact h id
    have hrest := ih hone.twins
    simp only [Session.forEach]
    exact ⟨hrest.twins, by simp only [List.map_append, hone.events, hrest.events]⟩

theorem settleRounds (h : R.Twins s s') (fuel : Nat) :
    R.DoSame (Session.settleRounds fuel s) (Session.settleRounds fuel s') := by
  induction fuel generalizing s s' with
  | zero => exact h.doNothing
  | succ fuel ih =>
    have hexpired : R.DoSame s.expireDue s'.expireDue := by
      rw [Session.expireDue, Session.expireDue, h.alike.size]
      exact forEach expireIfDue h _
    have hpass : R.DoSame (s.expireDue.1.evaluateAll s.expireDue.1.pendingIds)
        (s'.expireDue.1.evaluateAll s'.expireDue.1.pendingIds) := by
      rw [hexpired.twins.alike.pendingIds_eq]
      exact forEach evaluate hexpired.twins _
    have hend : (s'.expireDue.1.evaluateAll s'.expireDue.1.pendingIds).2.isEmpty =
        (s.expireDue.1.evaluateAll s.expireDue.1.pendingIds).2.isEmpty := by
      rw [← List.isEmpty_map, hpass.events, List.isEmpty_map]
    simp only [Session.settleRounds, hend]
    split
    case isTrue => exact ⟨hpass.twins, hexpired.events⟩
    case isFalse =>
      have hlater := ih hpass.twins
      refine ⟨hlater.twins, ?_⟩
      simp only [List.map_append, hexpired.events, hpass.events, hlater.events]

theorem settle (h : R.Twins s s') : R.DoSame s.settle s'.settle := by
  rw [Session.settle, Session.settle, h.alike.pendingIds_eq]
  exact h.settleRounds _

/-! ## The clock -/

theorem atClock (h : R.Twins s s') (ms : Nat) :
    R.Twins { s with clock := ms } { s' with clock := ms } :=
  ⟨h.alike.atClock ms, h.left.atClock ms, h.right.atClock ms⟩

theorem advanceStops (h : R.Twins s s') (fuel target : Nat) :
    R.DoSame (Session.advanceStops fuel target s) (Session.advanceStops fuel target s') := by
  induction fuel generalizing s s' with
  | zero => exact (h.atClock target).doNothing
  | succ fuel ih =>
    have hsettle := h.settle
    simp only [Session.advanceStops, hsettle.twins.alike.nextStop?_eq]
    split
    case h_1 => exact ⟨hsettle.twins.atClock target, hsettle.events⟩
    case h_2 stop _ =>
      split
      case isTrue =>
        have hlater := ih (hsettle.twins.atClock stop)
        refine ⟨hlater.twins, ?_⟩
        simp only [List.map_append, hsettle.events, hlater.events]
      case isFalse => exact ⟨hsettle.twins.atClock target, hsettle.events⟩

theorem advance (h : R.Twins s s') (ms : Nat) : R.DoSame (s.advance ms) (s'.advance ms) := by
  rw [Session.advance, Session.advance, h.alike.ends_eq, h.alike.clock]
  exact h.advanceStops _ _

end Twins

/-! ## Steps -/

/-- Two sessions have performed the same step but for names. -/
structure PerformSame (R : Renaming) (r r' : Session × Reply × List Event) : Prop where
  alike : R.Alike r.1 r'.1
  reply : r'.2.1.unnamed = r.2.1.unnamed
  events : r'.2.2.map Event.unnamed = r.2.2.map Event.unnamed

/-- A policy gives the same answer for entries of one protocol, or none for both. -/
theorem ask_cases {e e' : Entry} (h : e'.protocol = e.protocol) (p : Policy) (n : Nat) :
    (∃ L, p.ask e n = .ok L ∧ p.ask e' n = .ok L) ∨
      ∃ f f', p.ask e n = .error f ∧ p.ask e' n = .error f' ∧
        (Failure.policyFailed f').unnamed = (Failure.policyFailed f).unnamed := by
  unfold Policy.ask
  rw [h]
  split
  · exact Or.inr ⟨_, _, rfl, rfl, rfl⟩
  · split
    · cases (p.base e.protocol).times? n with
      | none => exact Or.inr ⟨_, _, rfl, rfl, rfl⟩
      | some L => exact Or.inl ⟨L, rfl, rfl⟩
    · exact Or.inl ⟨_, rfl, rfl⟩

namespace Alike

theorem held?_cases (h : R.Alike s s') (id : Nat) :
    (s.held? id = none ∧ s'.held? id = none) ∨
      ∃ w w', s.held? id = some w ∧ s'.held? id = some w' ∧ R.Calls w w' := by
  unfold Session.held?
  rcases h.calls_cases id with ⟨hw, hw'⟩ | ⟨w, w', hw, hw', hcalls, -⟩
  · rw [hw, hw']
    exact Or.inl ⟨rfl, rfl⟩
  · simp only [hw, hw', hcalls.isHeld_eq]
    split
    · exact Or.inr ⟨w, w', rfl, rfl, hcalls⟩
    · exact Or.inl ⟨rfl, rfl⟩

theorem pending?_cases (h : R.Alike s s') (id : Nat) :
    (s.pending? id = none ∧ s'.pending? id = none) ∨
      ∃ w w', s.pending? id = some w ∧ s'.pending? id = some w' ∧ R.Calls w w' := by
  unfold Session.pending?
  rcases h.calls_cases id with ⟨hw, hw'⟩ | ⟨w, w', hw, hw', hcalls, -⟩
  · rw [hw, hw']
    exact Or.inl ⟨rfl, rfl⟩
  · simp only [hw, hw', hcalls.isPending_eq]
    split
    · exact Or.inr ⟨w, w', rfl, rfl, hcalls⟩
    · exact Or.inl ⟨rfl, rfl⟩

/-- A release at one clock with one linger is the same in both. -/
theorem release (h : R.Alike s s') (hcalls : R.Calls w w') (held : Bool) (sleep : Sleep)
    (linger : Span) :
    R.Alike (s.release w held sleep linger).1 (s'.release w' held sleep linger).1 ∧
      (s'.release w' held sleep linger).2.map Event.unnamed =
        (s.release w held sleep linger).2.map Event.unnamed := by
  have hafter : s'.releaseAfter sleep linger = s.releaseAfter sleep linger := by
    rw [Session.releaseAfter, Session.releaseAfter, h.now_eq]
  unfold Session.release Session.releaseEvents
  rw [hafter, hcalls.tickets.id, h.now_eq]
  refine ⟨h.setPhase _ _, ?_⟩
  cases instantAfter s.now linger <;>
    simp only [List.map_cons, List.map_nil, Event.unnamed, hcalls.tickets.unnamed_eq]

end Alike

namespace Twins

theorem askPolicy_cases (h : R.Twins s s') (hcalls : R.Calls w w') :
    (∃ L, s.askPolicy w = .ok L ∧ s'.askPolicy w' = .ok L) ∨
      ∃ f f', s.askPolicy w = .error f ∧ s'.askPolicy w' = .error f' ∧
        (Failure.policyFailed f').unnamed = (Failure.policyFailed f).unnamed := by
  rw [Session.askPolicy, Session.askPolicy, h.alike.policy, h.alike.numEntries_eq h.left h.right]
  refine ask_cases ?_ _ _
  rw [hcalls.tickets.entry, R.protocol_eq _ hcalls.tickets.mem_entries]

theorem withHandle (h : R.Twins s s') (id : Nat) {act act' : Wait → Session × Reply × List Event}
    (hact : ∀ {w w' : Wait}, R.Calls w w' → R.PerformSame (act w) (act' w')) :
    R.PerformSame (s.withHandle id act) (s'.withHandle id act') := by
  unfold Session.withHandle
  rcases h.alike.held?_cases id with ⟨hnone, hnone'⟩ | ⟨w, w', hw, hw', hcalls⟩
  · rw [hnone, hnone']
    exact ⟨h.alike, rfl, rfl⟩
  · rw [hw, hw']
    exact hact hcalls

theorem performFinish (h : R.Twins s s') {id : Nat} {what : Step}
    (hwhat : what = .finish id ∨ what = .finishDetached id) :
    R.PerformSame (s.perform what) (s'.perform what) := by
  rw [Session.perform_finish hwhat, Session.perform_finish hwhat]
  refine h.withHandle id fun {w w'} hcalls => ?_
  unfold Session.finishBy
  rw [hcalls.release?_eq]
  cases w.release? with
  | some r =>
    refine ⟨h.alike, rfl, ?_⟩
    simp only [List.map_cons, List.map_nil, Event.unnamed, hcalls.tickets.unnamed_eq]
  | none =>
    rcases h.askPolicy_cases hcalls with ⟨L, hask, hask'⟩ | ⟨f, f', hask, hask', hsame⟩
    · obtain ⟨halike, hevents⟩ := h.alike.release hcalls true what.sleep L
      simp only [hask, hask']
      exact ⟨halike, rfl, hevents⟩
    · simp only [hask, hask']
      exact ⟨h.alike, congrArg Reply.failed hsame, rfl⟩

theorem performDrop (h : R.Twins s s') (id : Nat) :
    R.PerformSame (s.perform (.drop id)) (s'.perform (.drop id)) := by
  refine h.withHandle id fun {w w'} hcalls => ?_
  unfold Session.drop
  rw [hcalls.release?_eq]
  cases w.release? with
  | some r =>
    simp only [hcalls.tickets.id]
    exact ⟨h.alike.setPhase _ _, rfl, rfl⟩
  | none =>
    rcases h.askPolicy_cases hcalls with ⟨L, hask, hask'⟩ | ⟨f, f', hask, hask', -⟩
    · obtain ⟨halike, hevents⟩ := h.alike.release hcalls false .timer L
      simp only [hask, hask']
      refine ⟨halike, rfl, ?_⟩
      simp only [List.map_cons, Event.unnamed, hcalls.tickets.unnamed_eq, hevents]
    · obtain ⟨halike, hevents⟩ := h.alike.release hcalls false .timer s.fallback
      simp only [hask, hask', h.alike.fallback]
      refine ⟨halike, rfl, ?_⟩
      simp only [List.map_cons, Event.unnamed, hcalls.tickets.unnamed_eq, hevents]

theorem performLose (h : R.Twins s s') (id : Nat) :
    R.PerformSame (s.perform (.lose id)) (s'.perform (.lose id)) := by
  refine h.withHandle id fun {w w'} hcalls => ?_
  unfold Session.lose
  rw [hcalls.release?_eq]
  cases w.release? with
  | some r =>
    simp only [hcalls.tickets.id]
    exact ⟨h.alike.setPhase _ _, rfl, rfl⟩
  | none =>
    obtain ⟨halike, hevents⟩ := h.alike.release hcalls false .timer s.fallback
    simp only [h.alike.fallback]
    refine ⟨halike, rfl, ?_⟩
    simp only [List.map_cons, Event.unnamed, hcalls.tickets.unnamed_eq, hevents]

/-- A call is registered and evaluated for the first time under its new names. -/
theorem start (h : R.Twins s s') (hcalls : R.Calls w w') (hid : w.ticket.id = s.waits.size)
    (hpending : w.phase = .pending) (hleft : (s.register w).Orderly)
    (hright : (s'.register w').Orderly) : R.DoSame (s.start w) (s'.start w') := by
  have hregistered : R.Twins (s.register w) (s'.register w') :=
    ⟨h.alike.register h.left h.right hcalls hid, hleft, hright⟩
  have hw : (s.register w).waits[s.waits.size]? = some w := by simp [Session.register]
  have hw' : (s'.register w').waits[s.waits.size]? = some w' := by
    simp [Session.register, ← h.alike.size]
  have htoken : s'.isTokenCancelled w'.token = s.isTokenCancelled w.token := by
    rw [Session.isTokenCancelled, Session.isTokenCancelled, h.alike.cancelledTokens,
      hcalls.token_eq]
  have hconclude := hregistered.conclude hw hw' hpending (s.isTokenCancelled w.token)
  have hblocked :
      ((s'.register w').blockedEvents w' (s.isTokenCancelled w.token)).map Event.unnamed =
        ((s.register w).blockedEvents w (s.isTokenCancelled w.token)).map Event.unnamed := by
    unfold Session.blockedEvents
    rw [hregistered.alike.verdict_eq hleft hright hcalls.tickets]
    split
    · simp only [List.map_cons, List.map_nil, Event.unnamed, hcalls.tickets.unnamed_eq]
    · rfl
  simp only [Session.start, htoken]
  exact ⟨hconclude.twins, by simp only [List.map_append, hblocked, hconclude.events]⟩

theorem performWait (h : R.Twins s s') {e : Entry} {priority : Priority} (he : e ∈ R.entries)
    (hp : priority ∈ R.priorities) (reason reason' token : String) (deadline : Option Span) :
    R.PerformSame (s.perform (.wait e reason priority token deadline))
      (s'.perform (.wait (R.entry e) reason' (R.priority priority) token deadline)) := by
  have hcalls : R.Calls (s.newWait e reason priority token deadline)
      (s'.newWait (R.entry e) reason' (R.priority priority) token deadline) :=
    ⟨⟨h.alike.size, he, hp, rfl, rfl⟩, by rw [Session.newWait, Session.newWait, h.alike.clock]⟩
  have hleft := (Session.Request.call e reason priority token deadline).replays.orderly h.left
  have hright := (Session.Request.call (R.entry e) reason' (R.priority priority) token
    deadline).replays.orderly h.right
  have hstart := h.start hcalls rfl rfl hleft hright
  exact ⟨hstart.twins.alike, congrArg Reply.started h.alike.size, hstart.events⟩

theorem performAbandon (h : R.Twins s s') (id : Nat) :
    R.PerformSame (s.perform (.abandon id)) (s'.perform (.abandon id)) := by
  unfold Session.perform
  rcases h.alike.pending?_cases id with ⟨hnone, hnone'⟩ | ⟨w, w', hw, hw', hcalls⟩
  · simp only [hnone, hnone']
    exact ⟨h.alike, rfl, rfl⟩
  · simp only [hw, hw', Session.abandon, hcalls.tickets.id]
    refine ⟨(h.alike.withdraw _ _).setPhase _ _, rfl, ?_⟩
    simp only [List.map_cons, List.map_nil, Event.unnamed, hcalls.tickets.unnamed_eq]

theorem performView (h : R.Twins s s') (id : Nat) :
    R.PerformSame (s.perform (.view id)) (s'.perform (.view id)) := by
  refine h.withHandle id fun {w w'} hcalls => ⟨h.alike, congrArg Reply.handle ?_, rfl⟩
  rw [HandleView.unnamed, HandleView.unnamed, Wait.view, Wait.view, hcalls.tickets.id,
    hcalls.startedAt_eq, hcalls.announcedEnd?_eq, hcalls.release?_eq]

/-- **A step has the same effect under other names.** -/
theorem perform (h : R.Twins s s') {what what' : Step} (hwhat : R.Steps what what') :
    R.PerformSame (s.perform what) (s'.perform what') := by
  have hnothing : ∀ {reply reply' : Reply}, reply'.unnamed = reply.unnamed →
      R.PerformSame (s, reply, []) (s', reply', []) := fun hreply => ⟨h.alike, hreply, rfl⟩
  have htext : ∀ x x' : String, (Reply.text x').unnamed = (Reply.text x).unnamed := fun _ _ => rfl
  cases hwhat with
  | wait he hp reason reason' token deadline =>
    exact h.performWait he hp reason reason' token deadline
  | waitingFor he =>
    exact hnothing (congrArg Reply.count (h.alike.waitingFor_eq h.left h.right he))
  | other hcall hask =>
    cases what with
    | wait e reason priority token deadline => exact absurd trivial hcall
    | waitingFor e => exact absurd rfl (hask e)
    | cancel token =>
      exact ⟨⟨h.alike.clock, h.alike.fallback, congrArg (token :: ·) h.alike.cancelledTokens,
        h.alike.capacity, h.alike.policy, h.alike.size, h.alike.waits⟩, rfl, rfl⟩
    | abandon id => exact h.performAbandon id
    | finish id => exact h.performFinish (Or.inl rfl)
    | finishDetached id => exact h.performFinish (Or.inr rfl)
    | drop id => exact h.performDrop id
    | lose id => exact h.performLose id
    | view id => exact h.performView id
    | advance ms =>
      have hadvance := h.advance ms
      simp only [Session.perform]
      exact ⟨hadvance.twins.alike, by rw [hadvance.twins.alike.clock], hadvance.events⟩
    | setCapacity c =>
      exact ⟨h.alike.withController rfl h.alike.policy fun _ _ _ _ _ _ hsame => hsame, rfl, rfl⟩
    | setPolicy p =>
      exact ⟨h.alike.withController h.alike.capacity rfl fun _ _ _ _ _ _ hsame => hsame, rfl, rfl⟩
    | capacity => exact hnothing (congrArg Reply.capacity h.alike.capacity)
    | statusJson => exact hnothing (htext _ _)
    | statusText => exact hnothing (htext _ _)
    | debug => exact hnothing (htext _ _)

/-- **One step more**, and the sessions differ in names only, and so do the answers. -/
theorem step (h : R.Twins s s') {what what' : Step} (hwhat : R.Steps what what') :
    R.Twins (s.step what).1 (s'.step what').1 ∧
      (s.step what).2.SameButNames (s'.step what').2 := by
  have hperform := h.perform hwhat
  have hperformed : R.Twins (s.perform what).1 (s'.perform what').1 :=
    ⟨hperform.alike, (Session.replays_perform s what).orderly h.left,
      (Session.replays_perform s' what').orderly h.right⟩
  have hsettle := hperformed.settle
  have hafter : R.Twins (s.step what).1 (s'.step what').1 := by
    simp only [Session.step]
    exact hsettle.twins
  have hevents : (s'.step what').2.events.map Event.unnamed =
      (s.step what).2.events.map Event.unnamed := by
    simp only [Session.step, List.map_append, hperform.events, hsettle.events]
  have hreply : (s'.step what').2.reply.unnamed = (s.step what).2.reply.unnamed := by
    simp only [Session.step, hperform.reply]
  obtain ⟨hentries, hwaiting, hholders⟩ := Session.counts_step s what
  obtain ⟨hentries', hwaiting', hholders'⟩ := Session.counts_step s' what'
  refine ⟨hafter, filterMap_settled?_eq hevents, ?_, ?_, ?_, hreply, hevents⟩
  · rw [hentries, hentries', hafter.alike.numEntries_eq hafter.left hafter.right]
  · rw [hwaiting, hwaiting', hafter.alike.size_waiting_eq hafter.left hafter.right]
  · rw [hholders, hholders', hafter.alike.numHolders_eq hafter.left hafter.right]

theorem run (h : R.Twins s s') {steps steps' : List Step}
    (hsteps : List.Forall₂ R.Steps steps steps') :
    R.Twins (s.run steps).1 (s'.run steps').1 ∧
      List.Forall₂ Answer.SameButNames (s.run steps).2 (s'.run steps').2 := by
  induction hsteps generalizing s s' with
  | nil => exact ⟨h, .nil⟩
  | cons hwhat _ ih =>
    obtain ⟨hafter, hanswer⟩ := h.step hwhat
    obtain ⟨hlast, hanswers⟩ := ih hafter
    simp only [Session.run]
    exact ⟨hlast, .cons hanswer hanswers⟩

end Twins

theorem twins_new (R : Renaming) (capacity : Capacity) (linger : Span) :
    R.Twins (.new capacity linger) (.new capacity linger) where
  alike := ⟨rfl, rfl, rfl, rfl, rfl, rfl, fun i w hw => by simp [Session.new] at hw⟩
  left := Session.orderly_new capacity linger
  right := Session.orderly_new capacity linger

end Renaming

/-- **Names do not matter.** A run under other names, which keep different entries different, keep
their protocols and keep the order of the priorities, goes as the run does: step by step the answers
are the same but for names, and in the end the calls are the same but for names, each settled and
released as before, and the same of them hold their entries. -/
theorem names_do_not_matter (R : Renaming) (capacity : Capacity) (linger : Span)
    {steps steps' : List Step} (h : List.Forall₂ R.Steps steps steps') :
    R.Alike ((Session.new capacity linger).run steps).1
        ((Session.new capacity linger).run steps').1 ∧
      List.Forall₂ Answer.SameButNames ((Session.new capacity linger).run steps).2
        ((Session.new capacity linger).run steps').2 := by
  obtain ⟨hlast, hanswers⟩ := (R.twins_new capacity linger).run h
  exact ⟨hlast.alike, hanswers⟩

/-- The addresses of every entry the other way round, and small priorities twice as far apart. -/
def Renaming.mirrored : Renaming where
  entries := Set.univ
  priorities := {p | -1000 ≤ p.value ∧ p.value ≤ 1000}
  entry e := ⟨e.protocol, e.remoteAddr, e.localAddr⟩
  priority p :=
    if h : -1000 ≤ p.value ∧ p.value ≤ 1000 then ⟨2 * p.value - 7, by omega, by omega⟩ else p
  injOn := by
    rintro ⟨p, l, r⟩ - ⟨p', l', r'⟩ - h
    obtain ⟨rfl, rfl, rfl⟩ := Entry.mk.inj h
    rfl
  protocol_eq _ _ := rfl
  lt := by
    intro p hp q hq (h : p.value < q.value)
    rw [dif_pos (Set.mem_ofPred.mp hp), dif_pos (Set.mem_ofPred.mp hq)]
    show 2 * p.value - 7 < 2 * q.value - 7
    omega

/-- Two callers wait for an entry and one of a higher class for another. -/
theorem names_do_not_matter_mirrored :
    let standard : Priority := ⟨0, by decide, by decide⟩
    let high : Priority := ⟨3, by decide, by decide⟩
    let steps : List Step := [.wait ⟨"udp", "l", "a"⟩ "dns" standard "root" none,
      .wait ⟨"udp", "l", "b"⟩ "dns" standard "root" none,
      .wait ⟨"tcp", "l", "c"⟩ "web" high "root" (some ⟨9000000⟩),
      .waitingFor ⟨"udp", "l", "b"⟩, .finish 0, .advance 5]
    let steps' : List Step := [.wait ⟨"udp", "a", "l"⟩ "" ⟨-7, by decide, by decide⟩ "root" none,
      .wait ⟨"udp", "b", "l"⟩ "x" ⟨-7, by decide, by decide⟩ "root" none,
      .wait ⟨"tcp", "c", "l"⟩ "y" ⟨-1, by decide, by decide⟩ "root" (some ⟨9000000⟩),
      .waitingFor ⟨"udp", "b", "l"⟩, .finish 0, .advance 5]
    let r := (Session.new (.limited 1) ⟨2500000⟩).run steps
    let r' := (Session.new (.limited 1) ⟨2500000⟩).run steps'
    List.Forall₂ Renaming.mirrored.Steps steps steps' ∧ Renaming.mirrored.Alike r.1 r'.1 ∧
      List.Forall₂ Answer.SameButNames r.2 r'.2 ∧
      r'.2.flatMap Answer.settled = [⟨0, .admitted, 0⟩, ⟨2, .admitted, 3⟩] := by
  intro standard high steps steps' r r'
  subst r r'
  have hsteps : List.Forall₂ Renaming.mirrored.Steps steps steps' := by
    have hstandard : standard ∈ Renaming.mirrored.priorities := by constructor <;> decide
    have hhigh : high ∈ Renaming.mirrored.priorities := by constructor <;> decide
    have hnamed : ∀ e, e ∈ Renaming.mirrored.entries := fun _ => trivial
    refine .cons (.wait (hnamed _) hstandard ..) (.cons (.wait (hnamed _) hstandard ..)
      (.cons (.wait (hnamed _) hhigh ..) (.cons (.waitingFor (hnamed _)) ?_)))
    refine List.forall₂_same.mpr fun what hwhat => ?_
    fin_cases hwhat <;> exact .other (fun h => h) nofun
  obtain ⟨halike, hanswers⟩ := names_do_not_matter .mirrored (.limited 1) ⟨2500000⟩ hsteps
  refine ⟨hsteps, halike, hanswers, ?_⟩
  subst steps'
  decide_cbv

end Admission
