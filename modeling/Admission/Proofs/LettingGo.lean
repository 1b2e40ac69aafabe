import Admission.Proofs.FailingPolicy

/-!
# Whether a handle was let go

There are three ways to release a handle for the first time: to finish it and keep it, to drop it,
and to lose it. With the same linger they write down the same release, and what is left of the
difference is whether the caller still has its handle. The caller itself can see that; the session
cannot:

> whatever is done to a session, except to the handle itself, is done in the same way and with the
> same answers when the handle was let go before.

So `Session.letGo`, which takes the handle from its caller and changes nothing else, passes through
every piece of a session's work, from one evaluation to a whole run.
-/

set_option autoImplicit false

namespace Admission

/-- Does the step ask something of the handle of the call, or do something with it? -/
def Step.Touches (what : Step) (i : Nat) : Prop := what.handle? = some i ∨ what = .view i

instance (what : Step) (i : Nat) : Decidable (what.Touches i) :=
  inferInstanceAs (Decidable (what.handle? = some i ∨ what = .view i))

/-- What becomes of a call whose caller has its handle no longer. -/
def Phase.letGo : Phase → Phase
  | .admitted _ release => .admitted false release
  | phase => phase

namespace Wait

/-- The same call, whose caller has its handle no longer. -/
def letGo (w : Wait) : Wait := { w with phase := w.phase.letGo }

theorem isPending_letGo (w : Wait) : w.letGo.isPending = w.isPending := by
  refine Bool.eq_iff_iff.mpr ?_
  rw [isPending_iff, isPending_iff, letGo]
  cases w.phase <;> simp [Phase.letGo]

theorem release?_letGo (w : Wait) : w.letGo.release? = w.release? := by
  simp only [release?, letGo]
  cases w.phase <;> rfl

theorem announcedEnd?_letGo (w : Wait) : w.letGo.announcedEnd? = w.announcedEnd? := by
  simp only [announcedEnd?, release?_letGo]

end Wait

namespace Session

variable {s s₁ : Session} {i j : Nat} {w : Wait}

/-- The same session, where the caller of one call has its handle no longer. -/
def letGo (s : Session) (i : Nat) : Session := { s with waits := s.waits.modify i Wait.letGo }

/-- The call does not wait, and never will. -/
def Over (s : Session) (i : Nat) : Prop := ∃ w, s.waits[i]? = some w ∧ w.phase ≠ .pending

theorem invariant_over (i : Nat) : Invariant fun s => s.Over i where
  request h hs hover := by
    obtain ⟨w, hw, hsettled⟩ := hover
    obtain ⟨w', hw', -, hsettled'⟩ := h.settled_after hs hw hsettled
    exact ⟨w', hw', hsettled'⟩
  turn h hs hover := by
    obtain ⟨w, hw, hsettled⟩ := hover
    obtain ⟨w', hw', hbecomes⟩ := (h.follows hs).waits i w hw
    obtain rfl := hbecomes.eq_of_ne_pending hsettled
    exact ⟨w', hw', hsettled⟩

/-! ## The calls of a session -/

theorem getElem?_letGo (s : Session) (i j : Nat) :
    (s.letGo i).waits[j]? = if i = j then s.waits[j]?.map Wait.letGo else s.waits[j]? :=
  Array.getElem?_modify

theorem getElem?_letGo_of_ne (h : j ≠ i) : (s.letGo i).waits[j]? = s.waits[j]? := by
  rw [getElem?_letGo, if_neg (Ne.symm h)]

theorem withWaits_congr {waits waits' : Array Wait} (h : ∀ j : Nat, waits[j]? = waits'[j]?) :
    ({ s with waits := waits } : Session) = { s with waits := waits' } := by
  rw [Array.ext_getElem? h]

/-- Of each call everything is the same that the session looks at, and of all calls but one
everything. -/
theorem exists_letGo (i : Nat) (hw : s.waits[j]? = some w) :
    ∃ w', (s.letGo i).waits[j]? = some w' ∧ w'.ticket = w.ticket ∧ w'.release? = w.release? ∧
      w'.isPending = w.isPending ∧ (j ≠ i → w' = w) := by
  rw [getElem?_letGo, hw]
  by_cases hij : i = j
  · rw [if_pos hij]
    exact ⟨w.letGo, rfl, rfl, w.release?_letGo, w.isPending_letGo, fun h => absurd hij.symm h⟩
  · rw [if_neg hij]
    exact ⟨w, rfl, rfl, rfl, rfl, fun _ => rfl⟩

theorem getElem?_letGo_eq_none (h : s.waits[j]? = none) : (s.letGo i).waits[j]? = none := by
  rw [getElem?_letGo, h]
  split <;> rfl

theorem size_letGo (s : Session) (i : Nat) : (s.letGo i).waits.size = s.waits.size :=
  Array.size_modify

theorem pendingIds_letGo (s : Session) (i : Nat) : (s.letGo i).pendingIds = s.pendingIds := by
  rw [pendingIds, size_letGo, pendingIds]
  refine List.filter_congr fun j _ => ?_
  cases hw : s.waits[j]? with
  | none => rw [getElem?_letGo_eq_none hw]
  | some w =>
    obtain ⟨w', hw', -, -, hpending, -⟩ := exists_letGo i hw
    rw [hw', Option.map_some, Option.map_some, hpending]

/-! ## What is done to the calls -/

/-- For an admitted call it is a change of what became of it. -/
theorem letGo_eq_setPhase (hw : s.waits[i]? = some w) {held : Bool} {release : Option Release}
    (hphase : w.phase = .admitted held release) :
    s.letGo i = s.setPhase i (.admitted false release) := by
  refine withWaits_congr fun j => ?_
  rw [Array.getElem?_modify, Array.getElem?_modify]
  split
  case isTrue hij =>
    rw [← hij, hw, Option.map_some, Option.map_some, Wait.letGo, hphase]
    rfl
  case isFalse => rfl

theorem letGo_setPhase_self (s : Session) (i : Nat) (held : Bool) (release : Option Release) :
    (s.setPhase i (.admitted held release)).letGo i = s.setPhase i (.admitted false release) := by
  refine withWaits_congr fun j => ?_
  rw [Array.getElem?_modify, Array.getElem?_modify, getElem?_setPhase]
  split
  · rw [Option.map_map]
    rfl
  · rfl

theorem letGo_setPhase (h : j ≠ i) (phase : Phase) :
    (s.letGo i).setPhase j phase = (s.setPhase j phase).letGo i := by
  refine withWaits_congr fun k => ?_
  rw [Array.getElem?_modify, Array.getElem?_modify, getElem?_letGo, getElem?_setPhase]
  by_cases hjk : j = k
  · have hik : i ≠ k := fun hik => h (hjk.trans hik.symm)
    simp only [if_pos hjk, if_neg hik]
  · simp only [if_neg hjk]

theorem letGo_register (h : s.Over i) (w : Wait) :
    (s.letGo i).register w = (s.register w).letGo i := by
  obtain ⟨v, hv, -⟩ := h
  have hi := (Array.getElem?_eq_some_iff.mp hv).1
  refine withWaits_congr (s := s.withController _) fun k => ?_
  rw [Array.getElem?_modify, Array.getElem?_push, size_letGo, getElem?_letGo, register,
    Array.getElem?_push]
  by_cases hk : k = s.waits.size
  · have hik : i ≠ k := (hk ▸ hi).ne
    simp only [if_pos hk, if_neg hik]
  · simp only [if_neg hk]

/-! ## Settling -/

theorem letGo_expireIfDue (s : Session) (i j : Nat) :
    (s.letGo i).expireIfDue j = ((s.expireIfDue j).1.letGo i, (s.expireIfDue j).2) := by
  cases hw : s.waits[j]? with
  | none => simp only [expireIfDue, hw, getElem?_letGo_eq_none hw]
  | some w =>
    obtain ⟨w', hw', hticket, hrelease, -, -⟩ := exists_letGo i hw
    have hend : (s.letGo i).lingerEnd? w' = s.lingerEnd? w := by
      simp only [lingerEnd?, hrelease, hticket]
      rfl
    simp only [expireIfDue, hw, hw', hend, hticket]
    cases s.lingerEnd? w with
    | none => rfl
    | some instant =>
      have hnow : (s.letGo i).now = s.now := rfl
      simp only [hnow]
      split <;> rfl

theorem letGo_conclude (h : w.ticket.id ≠ i) (cancelled : Bool) :
    (s.letGo i).conclude w cancelled =
      ((s.conclude w cancelled).1.letGo i, (s.conclude w cancelled).2) := by
  have hcontroller : (s.letGo i).controller = s.controller := rfl
  simp only [conclude, hcontroller]
  cases s.controller.verdict w.ticket cancelled with
  | granted => exact Prod.ext (letGo_setPhase (s := s.withController _) h _) rfl
  | withdrawn => exact Prod.ext (letGo_setPhase (s := s.withController _) h _) rfl
  | blocked => rfl
  | orphaned => rfl

theorem Over.ne_of_pending (h : s.Over i) (hw : s.waits[j]? = some w)
    (hpending : w.phase = .pending) :
    j ≠ i := by
  obtain ⟨v, hv, hover⟩ := h
  rintro rfl
  rw [Option.some.inj (hw.symm.trans hv)] at hpending
  exact hover hpending

theorem letGo_evaluate (hs : s.Orderly) (hover : s.Over i) (j : Nat) :
    (s.letGo i).evaluate j = ((s.evaluate j).1.letGo i, (s.evaluate j).2) := by
  cases hw : s.waits[j]? with
  | none => simp only [evaluate, hw, getElem?_letGo_eq_none hw]
  | some w =>
    obtain ⟨w', hw', -, -, hsame, hothers⟩ := exists_letGo i hw
    simp only [evaluate, hw, hw', hsame]
    split
    case isTrue hpending =>
      have hji := hover.ne_of_pending hw (Wait.isPending_iff.mp hpending)
      rw [hothers hji]
      exact letGo_conclude (hs.id_eq hw ▸ hji) _
    case isFalse => rfl

theorem letGo_forEach {act : Session → Nat → Session × List Event}
    (hact : ∀ {s : Session}, s.Orderly → s.Over i → ∀ j,
      act (s.letGo i) j = ((act s j).1.letGo i, (act s j).2))
    (hturns : ∀ (s : Session) j, Turns s (act s j).1 (act s j).2) (hs : s.Orderly)
    (hover : s.Over i) (ids : List Nat) :
    forEach act ids (s.letGo i) = ((forEach act ids s).1.letGo i, (forEach act ids s).2) := by
  induction ids generalizing s with
  | nil => rfl
  | cons id rest ih =>
    have hone := hturns s id
    simp only [forEach, hact hs hover id,
      ih (hone.orderly hs) ((invariant_over i).turns hone hs hover)]

theorem letGo_evaluateAll (hs : s.Orderly) (hover : s.Over i) (ids : List Nat) :
    (s.letGo i).evaluateAll ids = ((s.evaluateAll ids).1.letGo i, (s.evaluateAll ids).2) :=
  letGo_forEach letGo_evaluate turns_evaluate hs hover ids

theorem letGo_settleRounds (hs : s.Orderly) (hover : s.Over i) (fuel : Nat) :
    settleRounds fuel (s.letGo i) = ((settleRounds fuel s).1.letGo i, (settleRounds fuel s).2) := by
  induction fuel generalizing s with
  | zero => rfl
  | succ fuel ih =>
    have hexpired : (s.letGo i).expireDue = (s.expireDue.1.letGo i, s.expireDue.2) := by
      simp only [expireDue, size_letGo]
      exact letGo_forEach (fun _ _ => letGo_expireIfDue _ i) turns_expireIfDue hs hover _
    have hturns := turns_expireDue s
    have hs₁ := hturns.orderly hs
    have hover₁ := (invariant_over i).turns hturns hs hover
    have hturns₁ := turns_evaluateAll s.expireDue.1 s.expireDue.1.pendingIds
    have hlater := ih (hturns₁.orderly hs₁) ((invariant_over i).turns hturns₁ hs₁ hover₁)
    simp only [settleRounds, hexpired, pendingIds_letGo, letGo_evaluateAll hs₁ hover₁, hlater]
    split
    · rfl
    · rfl

theorem letGo_settle (hs : s.Orderly) (hover : s.Over i) :
    (s.letGo i).settle = (s.settle.1.letGo i, s.settle.2) := by
  rw [settle, pendingIds_letGo]
  exact letGo_settleRounds hs hover _

/-! ## The clock -/

/-- What is read off the calls in their order, and does not tell whether their callers have their
handles. -/
theorem map_letGo {α : Type} (f : Wait → α) (hf : ∀ w, f w.letGo = f w) (s : Session) (i : Nat) :
    (s.letGo i).waits.toList.map f = s.waits.toList.map f := by
  refine List.ext_getElem? fun j => ?_
  rw [List.getElem?_map, List.getElem?_map, Array.getElem?_toList, Array.getElem?_toList,
    getElem?_letGo]
  split
  · rw [Option.map_map]
    exact Option.map_congr fun w _ => hf w
  · rfl

theorem ends_letGo (s : Session) (i : Nat) : (s.letGo i).ends = s.ends := by
  have hends := s.map_letGo (fun w => w.announcedDeadline?.toList ++ (s.lingerStop? w).toList)
    (fun w => by
      simp only [lingerStop?, w.announcedEnd?_letGo]
      rfl) i
  exact congrArg List.flatten hends

theorem nextStop?_letGo (s : Session) (i : Nat) : (s.letGo i).nextStop? = s.nextStop? := by
  rw [nextStop?, ends_letGo]
  rfl

theorem letGo_advanceStops (hs : s.Orderly) (hover : s.Over i) (fuel target : Nat) :
    advanceStops fuel target (s.letGo i) =
      ((advanceStops fuel target s).1.letGo i, (advanceStops fuel target s).2) := by
  induction fuel generalizing s with
  | zero => rfl
  | succ fuel ih =>
    have hturns := turns_settle s
    have hs₁ := hturns.orderly hs
    have hover₁ := (invariant_over i).turns hturns hs hover
    simp only [advanceStops, letGo_settle hs hover, nextStop?_letGo]
    generalize s.settle = settled at hs₁ hover₁
    obtain ⟨s₁, events⟩ := settled
    cases s₁.nextStop? with
    | none => rfl
    | some stop =>
      have hlater := ih (s := { s₁ with clock := stop }) (hs₁.atClock stop) hover₁
      dsimp only
      split
      case isTrue hreach =>
        rw [show ({ s₁.letGo i with clock := stop } : Session) =
          ({ s₁ with clock := stop } : Session).letGo i from rfl, hlater]
      case isFalse hbeyond => rfl

theorem letGo_advance (hs : s.Orderly) (hover : s.Over i) (ms : Nat) :
    (s.letGo i).advance ms = ((s.advance ms).1.letGo i, (s.advance ms).2) := by
  rw [advance, ends_letGo]
  exact letGo_advanceStops hs hover _ _

/-! ## Steps -/

theorem held?_letGo_of_ne (h : j ≠ i) : (s.letGo i).held? j = s.held? j := by
  rw [held?, getElem?_letGo_of_ne h, held?]

theorem pending?_letGo (hover : s.Over i) (j : Nat) : (s.letGo i).pending? j = s.pending? j := by
  cases hw : s.waits[j]? with
  | none => simp only [pending?, hw, getElem?_letGo_eq_none hw]
  | some w =>
    obtain ⟨w', hw', -, -, hsame, hothers⟩ := exists_letGo i hw
    simp only [pending?, hw, hw', hsame]
    split
    case isTrue hpending =>
      rw [hothers (hover.ne_of_pending hw (Wait.isPending_iff.mp hpending))]
    case isFalse => rfl

theorem status_letGo (s : Session) (i : Nat) : (s.letGo i).status = s.status := by
  have hrow : ∀ j : Nat, (s.letGo i).waits[j]?.map (s.letGo i).holderOf =
      s.waits[j]?.map s.holderOf := by
    intro j
    have hhandle : ∀ w : Wait, (s.letGo i).holderOf w.letGo = s.holderOf w := by
      intro w
      simp only [holderOf, w.release?_letGo]
      rfl
    rw [getElem?_letGo]
    split
    · rw [Option.map_map]
      exact Option.map_congr fun w _ => hhandle w
    · rfl
  simp only [status, hrow]
  rfl

theorem letGo_withHandle {act act' : Wait → Session × Reply × List Event} (h : j ≠ i)
    (hact : ∀ w, s.held? j = some w → act' w = ((act w).1.letGo i, (act w).2)) :
    (s.letGo i).withHandle j act' =
      ((s.withHandle j act).1.letGo i, (s.withHandle j act).2) := by
  simp only [withHandle, held?_letGo_of_ne h]
  cases hw : s.held? j with
  | none => rfl
  | some w => exact hact w hw

theorem letGo_release (h : w.ticket.id ≠ i) (held : Bool) (sleep : Sleep) (L : Span) :
    (s.letGo i).release w held sleep L =
      ((s.release w held sleep L).1.letGo i, (s.release w held sleep L).2) :=
  Prod.ext (letGo_setPhase h _) rfl

theorem letGo_finishBy (h : w.ticket.id ≠ i) (sleep : Sleep) :
    (s.letGo i).finishBy w ((s.letGo i).release w true sleep) =
      ((s.finishBy w (s.release w true sleep)).1.letGo i,
        (s.finishBy w (s.release w true sleep)).2) := by
  have hask : (s.letGo i).askPolicy w = s.askPolicy w := rfl
  simp only [finishBy, hask, letGo_release h]
  cases w.release? with
  | some r => rfl
  | none => cases s.askPolicy w <;> rfl

theorem letGo_drop (h : w.ticket.id ≠ i) :
    (s.letGo i).drop w = ((s.drop w).1.letGo i, (s.drop w).2) := by
  have hask : (s.letGo i).askPolicy w = s.askPolicy w := rfl
  have hfallback : (s.letGo i).fallback = s.fallback := rfl
  simp only [drop, hask, hfallback, letGo_release h, letGo_setPhase h]
  cases w.release? with
  | some r => rfl
  | none => cases s.askPolicy w <;> rfl

theorem letGo_lose (h : w.ticket.id ≠ i) :
    (s.letGo i).lose w = ((s.lose w).1.letGo i, (s.lose w).2) := by
  have hfallback : (s.letGo i).fallback = s.fallback := rfl
  simp only [lose, hfallback, letGo_release h, letGo_setPhase h]
  cases w.release? <;> rfl

theorem letGo_start (hover : s.Over i) (h : w.ticket.id ≠ i) :
    (s.letGo i).start w = ((s.start w).1.letGo i, (s.start w).2) := by
  have htoken : (s.letGo i).isTokenCancelled w.token = s.isTokenCancelled w.token := rfl
  simp only [start, htoken, letGo_register hover, letGo_conclude h]
  rfl

theorem letGo_perform (hs : s.Orderly) (hover : s.Over i) {what : Step} (h : ¬ what.Touches i) :
    (s.letGo i).perform what = ((s.perform what).1.letGo i, (s.perform what).2) := by
  have hid : ∀ {j : Nat} {w : Wait}, s.held? j = some w → j ≠ i → w.ticket.id ≠ i := by
    intro j w hw hji
    rwa [hs.id_eq (getElem?_of_held? hw).1]
  have hfinish : ∀ {j : Nat} {what : Step}, what = .finish j ∨ what = .finishDetached j → j ≠ i →
      (s.letGo i).perform what = ((s.perform what).1.letGo i, (s.perform what).2) := by
    intro j what hwhat hji
    rw [perform_finish hwhat, perform_finish hwhat]
    refine letGo_withHandle hji fun w hw => ?_
    rw [letGo_finishBy (hid hw hji)]
  cases what with
  | wait e reason p token D =>
    have hnew : (s.letGo i).newWait e reason p token D = s.newWait e reason p token D := by
      simp only [newWait, size_letGo]
      rfl
    obtain ⟨v, hv, -⟩ := id hover
    have hne : (s.newWait e reason p token D).ticket.id ≠ i :=
      (Array.getElem?_eq_some_iff.mp hv).1.ne'
    simp only [perform, hnew, letGo_start hover hne]
  | cancel token => rfl
  | abandon j =>
    simp only [perform, pending?_letGo hover]
    cases hw : s.pending? j with
    | none => rfl
    | some w =>
      obtain ⟨hget, hpending⟩ := getElem?_of_pending? hw
      have hne : w.ticket.id ≠ i := hs.id_eq hget ▸ hover.ne_of_pending hget hpending
      exact Prod.ext (letGo_setPhase (s := s.withController _) hne _) rfl
  | finish j => exact hfinish (Or.inl rfl) fun hji => h (Or.inl (congrArg some hji))
  | finishDetached j => exact hfinish (Or.inr rfl) fun hji => h (Or.inl (congrArg some hji))
  | drop j =>
    have hji : j ≠ i := fun hji => h (Or.inl (congrArg some hji))
    refine letGo_withHandle hji fun w hw => ?_
    rw [letGo_drop (hid hw hji)]
  | lose j =>
    have hji : j ≠ i := fun hji => h (Or.inl (congrArg some hji))
    refine letGo_withHandle hji fun w hw => ?_
    rw [letGo_lose (hid hw hji)]
  | view j => exact letGo_withHandle (fun hji => h (Or.inr (congrArg Step.view hji))) fun w _ => rfl
  | advance ms =>
    rw [perform, letGo_advance hs hover, perform]
    -- Only the pair matters here; the move itself is not to be looked at.
    generalize s.advance ms = moved
    rfl
  | setCapacity c => rfl
  | setPolicy p => rfl
  | capacity => rfl
  | waitingFor e => rfl
  | statusJson => simp only [perform, status_letGo]
  | statusText => simp only [perform, status_letGo]
  | debug => rfl

/-- **The session cannot see whether a handle was let go.** -/
theorem letGo_step (hs : s.Orderly) (hover : s.Over i) {what : Step} (h : ¬ what.Touches i) :
    (s.letGo i).step what = ((s.step what).1.letGo i, (s.step what).2) := by
  obtain ⟨s₁, told, later, hrequest, hturns, -⟩ := turns_perform hs what
  have hs₁ := hrequest.replays.orderly hs
  have hover₁ := (invariant_over i).request hrequest hs hover
  simp only [step, letGo_perform hs hover h,
    letGo_settle (hturns.orderly hs₁) ((invariant_over i).turns hturns hs₁ hover₁)]
  generalize (s.perform what).1.settle = settled
  rfl

theorem letGo_run (hs : s.Orderly) (hover : s.Over i) {later : List Step}
    (h : ∀ what ∈ later, ¬ what.Touches i) :
    (s.letGo i).run later = ((s.run later).1.letGo i, (s.run later).2) := by
  induction later generalizing s with
  | nil => rfl
  | cons what rest ih =>
    obtain ⟨hfirst, hrest⟩ := List.forall_mem_cons.mp h
    have hlater := ih ((replays_step s what).orderly hs)
      ((invariant_over i).step hs hover what) hrest
    simp only [run, letGo_step hs hover hfirst, hlater]

/-- Whoever does not touch the handle gets the same answers, and reads off the same in the end. -/
theorem run_later_of_letGo (hs : s.Orderly) (hover : s.Over i) (hend : s₁ = s ∨ s₁ = s.letGo i)
    {later : List Step} (h : ∀ what ∈ later, ¬ what.Touches i) :
    (s₁.run later).2 = (s.run later).2 ∧ (s₁.run later).1.clock = (s.run later).1.clock ∧
      (s₁.run later).1.status = (s.run later).1.status ∧
      (s₁.run later).1.controller.debug = (s.run later).1.controller.debug := by
  rcases hend with rfl | rfl
  · exact ⟨rfl, rfl, rfl, rfl⟩
  · rw [letGo_run hs hover h]
    generalize s.run later = final
    exact ⟨rfl, rfl, status_letGo final.1 i, rfl⟩

/-! ## The first release of a handle -/

/-- What is done with a handle settles nobody by itself; only the settling that follows can. -/
theorem perform_settles_nobody (hhandle : s.held? i = some w) {what : Step}
    (hwhat : what.handle? = some i) : (s.perform what).2.2.filterMap Event.settled? = [] := by
  cases what with
  | finish j => exact (request_finishStep (Or.inl rfl)).settles_nobody
  | finishDetached j => exact (request_finishStep (Or.inr rfl)).settles_nobody
  | drop j =>
    obtain rfl := Option.some.inj hwhat
    simp only [perform, withHandle, hhandle]
    exact (request_drop hhandle).settles_nobody
  | lose j =>
    obtain rfl := Option.some.inj hwhat
    simp only [perform, withHandle, hhandle]
    exact (request_lose hhandle).settles_nobody
  | _ => cases hwhat

section Release

variable {L : Span} (hs : s.Orderly) (hw : s.waits[i]? = some w) (hheld : w.isHeld = true)
  (hrelease : w.release? = none) (hask : s.askPolicy w = .ok L)
include hs hw hheld hrelease hask

/-- Who releases the handle with the same linger and lets it go has finished it, and then let it
go. -/
theorem step_of_letsGo {what : Step} (hwhat : what.handle? = some i)
    (hperform : (s.perform what).1 =
      s.setPhase w.ticket.id (.admitted false (some (releaseAt s.clock .timer L)))) :
    (s.step what).1 = (s.step (.finish i)).1.letGo i ∧
      (s.step what).2.settled = (s.step (.finish i)).2.settled := by
  have hhandle : s.held? i = some w := held?_eq_some_iff.mpr ⟨hw, hheld⟩
  have hfinish : (s.perform (.finish i)).1 =
      s.setPhase w.ticket.id (.admitted true (some (releaseAt s.clock .timer L))) :=
    (perform_finish_of_ok hhandle hrelease hask (Or.inl rfl)).1
  have hnobody := perform_settles_nobody hhandle hwhat
  have hnobody' := perform_settles_nobody hhandle (show (Step.finish i).handle? = some i from rfl)
  have hs₁ := (replays_perform s (.finish i)).orderly hs
  have hover : (s.perform (.finish i)).1.Over i := by
    rw [hfinish, hs.id_eq hw]
    refine ⟨_, getElem?_setPhase_self rfl hw, by simp⟩
  rw [← letGo_setPhase_self s w.ticket.id true, ← hfinish, hs.id_eq hw] at hperform
  have hsettle := letGo_settle hs₁ hover
  rw [← hperform] at hsettle
  constructor
  · simp only [step, hsettle]
  · simp only [step, Answer.settled, List.filterMap_append, hnobody, hnobody', hsettle]

/-- **All ways to release a handle come to the same**, but for whether the caller still has it. -/
theorem run_release {first : List Step}
    (hfirst : first = [.finish i] ∨ first = [.drop i] ∨ first = [.finish i, .drop i] ∨
      (first = [.lose i] ∧ L = s.fallback)) :
    ((s.run first).1 = (s.run [.finish i]).1 ∨
        (s.run first).1 = (s.run [.finish i]).1.letGo i) ∧
      settledIn (s.run first).2 = settledIn (s.run [.finish i]).2 := by
  have hhandle : s.held? i = some w := held?_eq_some_iff.mpr ⟨hw, hheld⟩
  rcases hfirst with rfl | rfl | rfl | ⟨rfl, hdefault⟩
  · exact ⟨Or.inl rfl, rfl⟩
  · have hperform := (perform_drop hhandle hrelease).1
    rw [hask] at hperform
    simp only [run, settledIn, List.flatMap_singleton]
    exact (step_of_letsGo hs hw hheld hrelease hask rfl hperform).imp_left Or.inr
  · have hw₁ : (s.step (.finish i)).1.waits[i]? =
        some { w with phase := .admitted true (some (releaseAt s.clock .timer L)) } :=
      getElem?_step_of_perform hs hw (by simp)
        (perform_finish_of_ok hhandle hrelease hask (Or.inl rfl)).1
    obtain ⟨-, ⟨hdrop, -, hevents⟩, -⟩ :=
      step_of_released ((replays_step s (.finish i)).orderly hs) (atRest_step hs _)
        (noneDue_step hs _) hw₁ rfl rfl
    have hnobody : ((s.step (.finish i)).1.step (.drop i)).2.settled = [] := by
      rw [Answer.settled, hevents]
      rfl
    simp only [run, settledIn, List.flatMap_cons, List.flatMap_nil, hnobody, List.append_nil]
    exact ⟨Or.inr (hdrop.trans (letGo_eq_setPhase hw₁ rfl).symm), trivial⟩
  · have hperform := (perform_lose hhandle hrelease).1
    rw [← hdefault] at hperform
    simp only [run, settledIn, List.flatMap_singleton]
    exact (step_of_letsGo hs hw hheld hrelease hask rfl hperform).imp_left Or.inr

end Release

/-- **All ways to release a handle are alike.** After every run, let a caller hold a handle that was
not released, and let a policy be in place that answers for it. The caller may finish the handle,
drop it, finish it and then drop it, or, if the policy's answer is the default linger, lose it.
In each case the same calls are settled by that; and whatever is done afterwards, if only it does
not touch this handle, each of the answers is the same as if the handle had been finished, and so
are the clock, the status and the short form of the controller at the end. -/
theorem all_releases_are_alike (capacity : Capacity) (linger : Span) (steps : List Step) :
    let r := ((new capacity linger).run steps).1
    ∀ (i : Nat) (w : Wait), r.waits[i]? = some w → w.isHeld = true → w.view.isDone = false →
      ∀ (p : Policy) (L : Span),
        let s := r.withPolicy p
        s.askPolicy w = .ok L → ∀ first,
          first = [.finish i] ∨ first = [.drop i] ∨ first = [.finish i, .drop i] ∨
            (first = [.lose i] ∧ L = linger) →
          let finished := s.run [.finish i]
          let released := s.run first
          settledIn released.2 = settledIn finished.2 ∧
            ∀ later, (∀ what ∈ later, ¬ what.Touches i) →
              let a := finished.1.run later
              let b := released.1.run later
              b.2 = a.2 ∧ b.1.clock = a.1.clock ∧ b.1.status = a.1.status ∧
                b.1.controller.debug = a.1.controller.debug := by
  intro r i w hw hheld hnot p L s hask first hfirst finished released
  have hs : s.Orderly := ((orderly_new capacity linger).run steps).withPolicy p
  have hget : s.waits[i]? = some w := hw
  have hrelease : w.release? = none := by simpa [Wait.view] using hnot
  have hfallback : s.fallback = linger := invariant_fallback.run rfl steps
  rw [← hfallback] at hfirst
  obtain ⟨hend, hsettled⟩ := run_release hs hget hheld hrelease hask hfirst
  refine ⟨hsettled, fun later hlater => ?_⟩
  have hover : s.Over i := by
    refine ⟨w, hget, ?_⟩
    rw [Wait.phase_of_isHeld hheld]
    simp
  exact run_later_of_letGo (hs.run _) ((invariant_over i).later hs hover _) hend hlater

/-- One slot and a default linger of five milliseconds, which the policy in place answers as well.
The handle is lost while another call waits. -/
theorem all_releases_are_alike_lost :
    let a : Entry := ⟨"udp", "l", "a"⟩
    let b : Entry := ⟨"udp", "l", "b"⟩
    let w : Wait := ⟨⟨0, a, "", .standard⟩, "root", 0, none, .admitted true none⟩
    let steps := [.wait a "" .standard "root" none, .wait b "" .standard "root" none, .advance 2]
    let r := ((new (.limited 1) ⟨5000000⟩).run steps).1
    let s := r.withPolicy (.constant ⟨5000000⟩)
    let later := [.advance 5, .finish 1]
    r.waits[0]? = some w ∧ s.askPolicy w = .ok ⟨5000000⟩ ∧
      ((s.run [.finish 0]).1.run later).2.map Answer.settled = [[⟨1, .admitted, 7⟩], []] ∧
      ((s.run [.lose 0]).1.run later).2 = ((s.run [.finish 0]).1.run later).2 := by
  intro a b w steps r s later
  have hfacts : r.waits[0]? = some w ∧
      ((s.run [.finish 0]).1.run later).2.map Answer.settled = [[⟨1, .admitted, 7⟩], []] := by
    subst s r later steps w b a
    decide_cbv
  have hall := all_releases_are_alike (.limited 1) ⟨5000000⟩ steps
  have hr : ((new (.limited 1) ⟨5000000⟩).run steps).1 = r := rfl
  rw [hr] at hall
  have hask : s.askPolicy w = .ok ⟨5000000⟩ := rfl
  clear_value r
  obtain ⟨-, hlater⟩ := hall 0 w hfacts.1 rfl rfl (.constant ⟨5000000⟩) ⟨5000000⟩ hask [.lose 0]
    (Or.inr (Or.inr (Or.inr ⟨rfl, rfl⟩)))
  exact ⟨hfacts.1, hask, hfacts.2, (hlater later (by decide)).1⟩

end Session

end Admission
