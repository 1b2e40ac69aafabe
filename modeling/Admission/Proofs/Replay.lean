import Admission.Proofs.Request

/-!
# A session replayed as transactions

A session changes its controller by transactions and by nothing else, but which ones they are is
decided by timers, tokens, rounds and the order of the calls. Here all this is forgotten. What is
kept is a ledger that agrees with the session (`Ledger.Accounts`), and for each piece of the
session's work the statement `Session.Replays`:

> whatever ledger accounts for the session before, there are transactions which callers could have
> caused one by one, and which lead it to a ledger that accounts for the session after; and the
> events tell of just these transactions, in order.

So whatever holds of every interleaving of transactions holds of every session. The one thing a
session adds is where new tickets come from: settling and moving the clock register nobody
(`Session.replays_settle`, `Session.replays_advance`), and neither does any step but a call.
-/

set_option autoImplicit false

namespace Admission

/-- What is seen of a transaction from outside. Registrations are not seen, and neither is an
evaluation that leaves its ticket waiting. -/
inductive Effect where
  | admitted (t : Ticket)
  | cancelled (t : Ticket)
  | abandoned (t : Ticket)
  | expired (t : Ticket) (freed : Bool)
  | capacityChanged (k : Capacity)
deriving DecidableEq

def Controller.effect? (c : Controller) : Transaction → Option Effect
  | .register _ => none
  | .evaluate t cancelled =>
    match c.verdict t cancelled with
    | .granted => some (.admitted t)
    | .withdrawn => some (.cancelled t)
    | .blocked => none
    | .orphaned => none
  | .abandon t => some (.abandoned t)
  | .expire t => some (.expired t (c.wouldFree t))
  | .setCapacity k => some (.capacityChanged k)
  | .setPolicy _ => none

def Controller.effects (c : Controller) : List Transaction → List Effect
  | [] => []
  | tx :: rest => (c.effect? tx).toList ++ (c.apply tx).effects rest

/-- What an event tells of the transaction behind it. Most events about handles have none. -/
def Event.effect? : Event → Option Effect
  | .admitted t _ _ => some (.admitted t)
  | .cancelled t _ _ => some (.cancelled t)
  | .abandoned t => some (.abandoned t)
  | .expired t freed => some (.expired t freed)
  | .capacityChanged k => some (.capacityChanged k)
  | _ => none

theorem Controller.effects_append (c : Controller) (txs rest : List Transaction) :
    c.effects (txs ++ rest) = c.effects txs ++ (c.applyAll txs).effects rest := by
  induction txs generalizing c with
  | nil => rfl
  | cons tx tail ih =>
    rw [List.cons_append, effects, effects, ih, List.append_assoc]
    rfl

/-- Does the transaction bring no new ticket? -/
def Transaction.RegistersNobody (tx : Transaction) : Prop := ∀ t, tx ≠ .register t

/-- From the session `s` to the session `s'` there is a way by transactions of a kind, and the
events tell of just these transactions, in order. -/
def Session.Replays (kind : Transaction → Prop) (s s' : Session) (events : List Event) : Prop :=
  ∀ l : Ledger, l.Accounts s → ∃ txs, (∀ tx ∈ txs, kind tx) ∧ l.AllowsAll txs ∧
    (l.applyAll txs).Accounts s' ∧
    events.filterMap Event.effect? = l.controller.effects txs

namespace Session

variable {kind kind' : Transaction → Prop} {s s₁ s₂ : Session} {events events' later : List Event}

/-! ## Putting replays together

Pieces of a session's work follow each other, and so do their transactions. Work that the ledger
does not know of, like the release of a handle, is a piece without a transaction. -/

namespace Replays

theorem mono (h : s.Replays kind s₁ events) (hkind : ∀ tx, kind tx → kind' tx) :
    s.Replays kind' s₁ events := by
  intro l hl
  obtain ⟨txs, htxs, hrest⟩ := h l hl
  exact ⟨txs, fun tx htx => hkind tx (htxs tx htx), hrest⟩

/-- Events without a transaction behind them can be added or left out. -/
theorem congr_events (h : s.Replays kind s₁ events)
    (hevents : events'.filterMap Event.effect? = events.filterMap Event.effect?) :
    s.Replays kind s₁ events' := by
  intro l hl
  obtain ⟨txs, htxs, hallow, hacc, heffects⟩ := h l hl
  exact ⟨txs, htxs, hallow, hacc, hevents.trans heffects⟩

/-- What the ledger does not know of needs no transaction. -/
theorem of_accounts (h : ∀ l : Ledger, l.Accounts s → l.Accounts s₁)
    (hevents : events.filterMap Event.effect? = []) : s.Replays kind s₁ events := by
  intro l hl
  refine ⟨[], ?_, trivial, h l hl, hevents⟩
  simp

theorem refl (s : Session) : s.Replays kind s [] := of_accounts (fun _ hl => hl) rfl

theorem of_apply (tx : Transaction) (hkind : kind tx)
    (h : ∀ l : Ledger, l.Accounts s → l.Allows tx ∧ (l.apply tx).Accounts s₁ ∧
      events.filterMap Event.effect? = (l.controller.effect? tx).toList) :
    s.Replays kind s₁ events := by
  intro l hl
  obtain ⟨hallow, hacc, heffects⟩ := h l hl
  refine ⟨[tx], ?_, ⟨hallow, trivial⟩, hacc, ?_⟩
  · simpa using hkind
  · rw [heffects, Controller.effects, Controller.effects, List.append_nil]

theorem trans (h : s.Replays kind s₁ events) (h' : s₁.Replays kind s₂ later) :
    s.Replays kind s₂ (events ++ later) := by
  intro l hl
  obtain ⟨txs, htxs, hallow, hacc, heffects⟩ := h l hl
  obtain ⟨rest, hrest, hallow', hacc', heffects'⟩ := h' _ hacc
  refine ⟨txs ++ rest, ?_, Ledger.allowsAll_append.mpr ⟨hallow, hallow'⟩, ?_, ?_⟩
  · intro tx htx
    rcases List.mem_append.mp htx with htx | htx
    · exact htxs tx htx
    · exact hrest tx htx
  · rw [Ledger.applyAll_append]
    exact hacc'
  · rw [List.filterMap_append, heffects, heffects', Ledger.controller_applyAll,
      Controller.effects_append]

theorem orderly (h : s.Replays kind s₁ events) (hs : s.Orderly) : s₁.Orderly := by
  obtain ⟨l, hl⟩ := hs
  obtain ⟨txs, -, -, hacc, -⟩ := h l hl
  exact ⟨_, hacc⟩

end Replays

/-! ## Settling -/

theorem setPhase_self {i : Nat} {w : Wait} (hw : s.waits[i]? = some w) :
    s.setPhase i w.phase = s := by
  have hwaits : (s.waits.modify i fun v => { v with phase := w.phase }) = s.waits := by
    refine Array.ext_getElem? fun j => ?_
    rw [Array.getElem?_modify]
    split
    case isTrue hij =>
      rw [← hij, hw]
      rfl
    case isFalse => rfl
  rw [setPhase, hwaits]

theorem conclude_of_stays {w : Wait} {cancelled : Bool}
    (h : s.controller.verdict w.ticket cancelled = .blocked ∨
      s.controller.verdict w.ticket cancelled = .orphaned) : s.conclude w cancelled = (s, []) := by
  rcases h with hv | hv
  · simp only [conclude, hv, Controller.apply_evaluate_of_blocked hv]
    rfl
  · simp only [conclude, hv, Controller.apply_evaluate_of_orphaned hv]
    rfl

theorem replays_conclude {i : Nat} {w : Wait} (hw : s.waits[i]? = some w)
    (hphase : w.phase = .pending) {cancelled : Bool} (hkind : kind (.evaluate w.ticket cancelled)) :
    s.Replays kind (s.conclude w cancelled).1 (s.conclude w cancelled).2 := by
  refine .of_apply (.evaluate w.ticket cancelled) hkind fun l hl => ?_
  have hwait := (hl.place_eq_waiting_iff hw).mpr hphase
  refine ⟨hwait, ?_⟩
  cases hv : s.controller.verdict w.ticket cancelled with
  | granted =>
    simp only [conclude, hv]
    rw [← hl.controller] at hv
    refine ⟨hl.apply_of_moves (p := .holding) _ hw hwait rfl ?_ rfl, ?_⟩
    · simp only [Ledger.move?, hv]
    · simp [Controller.effect?, hv, Event.effect?]
  | withdrawn =>
    simp only [conclude, hv]
    rw [← hl.controller] at hv
    refine ⟨hl.apply_of_moves (p := .nowhere) _ hw hwait rfl ?_ rfl, ?_⟩
    · simp only [Ledger.move?, hv]
    · simp [Controller.effect?, hv, Event.effect?]
  | blocked =>
    rw [conclude_of_stays (Or.inl hv)]
    rw [← hl.controller] at hv
    rw [Ledger.apply_evaluate_of_stays (Or.inl hv)]
    exact ⟨hl, by simp [Controller.effect?, hv]⟩
  | orphaned =>
    rw [conclude_of_stays (Or.inr hv)]
    rw [← hl.controller] at hv
    rw [Ledger.apply_evaluate_of_stays (Or.inr hv)]
    exact ⟨hl, by simp [Controller.effect?, hv]⟩

theorem replays_expire {i : Nat} {w : Wait} {instant : Nat} (hw : s.waits[i]? = some w)
    (hend : s.lingerEnd? w = some instant) :
    s.Replays Transaction.RegistersNobody
      (s.withController (s.controller.apply (.expire w.ticket)))
      [.expired w.ticket (s.controller.wouldFree w.ticket)] := by
  refine .of_apply (.expire w.ticket) (fun _ => nofun) fun l hl => ?_
  obtain ⟨hholds, announced, hrelease⟩ := lingerEnd?_eq_some_iff.mp hend
  obtain ⟨held, hphase⟩ := Wait.phase_of_release? hrelease
  have hmem := hl.mem_tickets hw
  have hplace := (hl.place_eq_holding_iff hmem).mpr hholds
  -- Nothing becomes of the call: that its linger is over is not written down with it.
  have hfits : w.phase.Fits .nowhere := by
    rw [hphase]
    exact Or.inr rfl
  have hacc := hl.apply_of_moves (.expire w.ticket) hw hmem rfl (if_pos hplace) hfits
  rw [hl.id_eq hw, setPhase_self (s := s.withController (s.controller.apply _)) hw] at hacc
  exact ⟨hmem, hacc, by rw [hl.controller]; rfl⟩

theorem replays_clock (s : Session) (ms : Nat) : s.Replays kind { s with clock := ms } [] :=
  .of_accounts (fun _ hl => hl.congr rfl rfl) rfl

/-- **A turn registers nobody.** -/
theorem Turn.replays (h : Turn s s₁ events) :
    s.Replays Transaction.RegistersNobody s₁ events := by
  cases h with
  | expire hw hend _ => exact replays_expire hw hend
  | evaluate hw hpending _ => exact replays_conclude hw hpending fun _ => nofun
  | blocked t => exact .congr_events (.refl s) rfl
  | tick _ _ _ _ => exact replays_clock s _

theorem Turns.replays (h : Turns s s₁ events) :
    s.Replays Transaction.RegistersNobody s₁ events := by
  induction h with
  | refl s => exact .refl s
  | cons hturn _ ih => exact hturn.replays.trans ih

theorem Turns.orderly (h : Turns s s₁ events) (hs : s.Orderly) : s₁.Orderly :=
  h.replays.orderly hs

/-- **Settling registers nobody.** -/
theorem replays_settle (s : Session) :
    s.Replays Transaction.RegistersNobody s.settle.1 s.settle.2 :=
  (turns_settle s).replays

/-! ## The clock -/

theorem replays_advanceStops (fuel target : Nat) (s : Session) :
    s.Replays Transaction.RegistersNobody (advanceStops fuel target s).1
      (advanceStops fuel target s).2 := by
  induction fuel generalizing s with
  | zero => exact replays_clock s target
  | succ fuel ih =>
    have hend := (replays_settle s).trans (replays_clock s.settle.1 target)
    rw [List.append_nil] at hend
    simp only [advanceStops]
    split
    · exact hend
    case h_2 stop hstop =>
      split
      · have hstopped := (replays_settle s).trans (replays_clock s.settle.1 stop)
        rw [List.append_nil] at hstopped
        exact hstopped.trans (ih _)
      · exact hend

/-- **Moving the clock registers nobody.** -/
theorem replays_advance (s : Session) (ms : Nat) :
    s.Replays Transaction.RegistersNobody (s.advance ms).1 (s.advance ms).2 :=
  replays_advanceStops _ _ s

/-! ## Requests -/

theorem replays_register {w : Wait} (hid : w.ticket.id = s.waits.size)
    (hphase : w.phase = .pending) : s.Replays (fun _ => True) (s.register w) [] := by
  refine .of_apply (.register w.ticket) trivial fun l hl => ?_
  exact ⟨hl.ne_of_mem_tickets hid, hl.register hid hphase, rfl⟩

theorem replays_abandon {i : Nat} {w : Wait} (hw : s.waits[i]? = some w)
    (hphase : w.phase = .pending) :
    s.Replays Transaction.RegistersNobody (s.abandon w).1 (s.abandon w).2 := by
  refine .of_apply (.abandon w.ticket) (fun _ => nofun) fun l hl => ?_
  have hwait := (hl.place_eq_waiting_iff hw).mpr hphase
  have hmem := hl.mem_tickets hw
  exact ⟨hmem, hl.apply_of_moves _ hw hmem rfl (if_pos hwait) rfl, rfl⟩

theorem replays_setPhase {i : Nat} {w : Wait} {phase : Phase} (hw : s.waits[i]? = some w)
    (hfits : ∀ p, w.phase.Fits p → phase.Fits p) :
    s.Replays kind (s.setPhase w.ticket.id phase) [] := by
  refine .of_accounts (fun l hl => ?_) rfl
  exact hl.setPhase hw (hfits _ (hl.fits i w hw))

/-- An aside has no transaction behind it. -/
theorem filterMap_asides (h : ∀ e ∈ events, e.IsAside) : events.filterMap Event.effect? = [] := by
  refine List.filterMap_eq_nil_iff.mpr fun e he => ?_
  have haside := h e he
  cases e with
  | releasedAgain t => rfl
  | droppedHeld t => rfl
  | policyFailed t => rfl
  | _ => cases haside

theorem filterMap_releaseEvents (s : Session) (t : Ticket) (linger : Span) :
    (s.releaseEvents t linger).filterMap Event.effect? = [] := by
  unfold releaseEvents
  cases instantAfter s.now linger with
  | some announced => rfl
  | none => rfl

/-- **A request registers somebody only if it is a call.** -/
theorem Request.replays {what : Step} (h : Request s what s₁ events) :
    s.Replays (fun tx => what.IsCall ∨ tx.RegistersNobody) s₁ events := by
  cases h with
  | call => exact (replays_register rfl rfl).mono fun _ _ => Or.inl trivial
  | cancel token => exact .of_accounts (fun l hl => hl.congr rfl rfl) rfl
  | abandon hpending =>
    obtain ⟨hw, hphase⟩ := getElem?_of_pending? hpending
    exact (replays_abandon hw hphase).mono fun _ => Or.inr
  | @release _ id w linger told _ hheld hrelease _ htold =>
    obtain ⟨hw, hphase⟩ := getElem?_of_held? hheld
    rw [hrelease] at hphase
    unfold Session.release
    refine Replays.congr_events (replays_setPhase hw fun p hp => ?_) ?_
    · rw [hphase] at hp
      exact hp.release _
    · rw [List.filterMap_append, filterMap_asides htold]
      exact s.filterMap_releaseEvents w.ticket linger
  | letGo _ hheld hrelease _ =>
    obtain ⟨hw, hphase⟩ := getElem?_of_held? hheld
    rw [hrelease] at hphase
    refine replays_setPhase hw fun p hp => ?_
    rw [hphase] at hp
    exact hp.handle
  | setCapacity c =>
    refine .of_apply (.setCapacity c) (Or.inr fun _ => nofun) fun l hl => ?_
    exact ⟨trivial, hl.apply_of_moves_none _ trivial rfl rfl, rfl⟩
  | setPolicy p =>
    refine .of_apply (.setPolicy p) (Or.inr fun _ => nofun) fun l hl => ?_
    exact ⟨trivial, hl.apply_of_moves_none _ trivial rfl rfl, rfl⟩
  | nothing _ _ _ _ htold => exact .congr_events (.refl s) (filterMap_asides htold)

/-! ## Steps

A step is a request or a move of the clock, and the settling after it. -/

/-- **A step registers somebody only if it is a call.** -/
theorem replays_perform (s : Session) (what : Step) :
    s.Replays (fun tx => what.IsCall ∨ tx.RegistersNobody) (s.perform what).1
      (s.perform what).2.2 := by
  by_cases hclock : ∃ ms, what = .advance ms
  · obtain ⟨ms, rfl⟩ := hclock
    simp only [perform]
    exact (replays_advance s ms).mono fun _ => Or.inr
  · obtain ⟨s₁, told, later, hrequest, hturns, hevents⟩ :=
      request_perform what fun ms h => hclock ⟨ms, h⟩
    rw [hevents]
    exact hrequest.replays.trans (hturns.replays.mono fun _ => Or.inr)

theorem replays_step (s : Session) (what : Step) :
    s.Replays (fun tx => what.IsCall ∨ tx.RegistersNobody) (s.step what).1
      (s.step what).2.events := by
  simp only [step]
  exact (replays_perform s what).trans ((replays_settle _).mono fun _ htx => Or.inr htx)

/-- **A run is an interleaving.** Without a call among its steps, it registers nobody. -/
theorem replays_run (s : Session) (steps : List Step) :
    s.Replays (fun tx => (∃ what ∈ steps, what.IsCall) ∨ tx.RegistersNobody) (s.run steps).1
      ((s.run steps).2.flatMap Answer.events) := by
  induction steps generalizing s with
  | nil => exact .refl s
  | cons what rest ih =>
    simp only [run, List.flatMap_cons]
    refine ((replays_step s what).mono ?_).trans ((ih _).mono ?_)
    · rintro tx (hcall | htx)
      · exact Or.inl ⟨what, List.mem_cons_self, hcall⟩
      · exact Or.inr htx
    · rintro tx (⟨later, hlater, hcall⟩ | htx)
      · exact Or.inl ⟨later, List.mem_cons_of_mem what hlater, hcall⟩
      · exact Or.inr htx

theorem orderly_new (capacity : Capacity) (linger : Span) : (new capacity linger).Orderly :=
  ⟨_, .new capacity linger⟩

theorem Orderly.atClock (hs : s.Orderly) (ms : Nat) :
    ({ s with clock := ms } : Session).Orderly := by
  obtain ⟨l, hl⟩ := hs
  exact ⟨l, hl.congr rfl rfl⟩

theorem Orderly.run (h : s.Orderly) (steps : List Step) : (s.run steps).1.Orderly :=
  (replays_run s steps).orderly h

end Session

end Admission
