import Admission.Proofs.Course
import Admission.Proofs.Unblock
import Mathlib.Data.List.Permutation
import Std.Data.TreeMap

-- The last two imports bring equations by which runs are evaluated.

/-!
# What settling leaves behind

Settling goes round as long as a round settles a call. Each such round makes the calls that wait
fewer, so the number of rounds that `Session.settle` grants is never the reason to stop, and the
session it leaves behind is at rest:

> no call that waits would be settled by evaluating it now.

At rest, whoever waits has a reason to. The verdict on the highest of those who wait says that there
is no room; so the limit is reached, and nobody waits who could share an entry or was cancelled.
-/

set_option autoImplicit false

namespace Admission.Session

variable {s : Session}

/-- Would the call go on waiting if it were evaluated now? -/
def Stays (s : Session) (w : Wait) : Prop :=
  s.controller.verdict w.ticket (s.isCancelled w) = .blocked ∨
    s.controller.verdict w.ticket (s.isCancelled w) = .orphaned

/-- No call that waits would be settled if it were evaluated now. -/
def AtRest (s : Session) : Prop :=
  ∀ (i : Nat) (w : Wait), s.waits[i]? = some w → w.phase = .pending → s.Stays w

/-! ## The calls that wait

The list of their numbers is what the rounds use up: evaluations take from it as many as they report
events, and timers take none. -/

theorem mem_pendingIds_iff {i : Nat} :
    i ∈ s.pendingIds ↔ ∃ w, s.waits[i]? = some w ∧ w.phase = .pending := by
  simp only [pendingIds, List.mem_filter, List.mem_range]
  cases hw : s.waits[i]? with
  | none => simp
  | some w =>
    have hi := (Array.getElem?_eq_some_iff.mp hw).1
    simp [hi, Wait.isPending]

theorem nodup_pendingIds (s : Session) : s.pendingIds.Nodup := List.nodup_range.filter _

theorem pendingIds_setPhase {phase : Phase} (hphase : phase ≠ .pending) (i : Nat) :
    (s.setPhase i phase).pendingIds = s.pendingIds.erase i := by
  rw [s.nodup_pendingIds.erase_eq_filter]
  simp only [pendingIds, setPhase, Array.size_modify, List.filter_filter]
  refine List.filter_congr fun j _ => ?_
  rw [Array.getElem?_modify]
  by_cases hij : i = j
  · subst hij
    cases s.waits[i]? <;> simp [Wait.isPending, hphase]
  · simp [hij, Ne.symm hij]

theorem length_pendingIds_setPhase {i : Nat} {w : Wait} {phase : Phase} (hw : s.waits[i]? = some w)
    (hpending : w.phase = .pending) (hphase : phase ≠ .pending) :
    (s.setPhase i phase).pendingIds.length + 1 = s.pendingIds.length := by
  rw [pendingIds_setPhase hphase]
  exact List.length_erase_add_one (mem_pendingIds_iff.mpr ⟨w, hw, hpending⟩)

theorem length_pendingIds_conclude {w : Wait} (hw : s.waits[w.ticket.id]? = some w)
    (hpending : w.phase = .pending) (cancelled : Bool) :
    (s.conclude w cancelled).1.pendingIds.length + (s.conclude w cancelled).2.length =
      s.pendingIds.length := by
  cases hv : s.controller.verdict w.ticket cancelled with
  | granted =>
    simp only [conclude, hv]
    exact length_pendingIds_setPhase hw hpending (by simp)
  | withdrawn =>
    simp only [conclude, hv]
    exact length_pendingIds_setPhase hw hpending (by simp)
  | blocked => rw [conclude_of_stays (Or.inl hv)]; rfl
  | orphaned => rw [conclude_of_stays (Or.inr hv)]; rfl

theorem length_pendingIds_evaluate (hs : s.Orderly) (id : Nat) :
    (s.evaluate id).1.pendingIds.length + (s.evaluate id).2.length = s.pendingIds.length := by
  unfold evaluate
  cases hw : s.waits[id]? with
  | none => rfl
  | some w =>
    dsimp only
    split
    case isTrue hpending =>
      exact length_pendingIds_conclude (hs.id_eq hw ▸ hw) (Wait.isPending_iff.mp hpending) _
    case isFalse => rfl

theorem length_pendingIds_evaluateAll (hs : s.Orderly) (ids : List Nat) :
    (s.evaluateAll ids).1.pendingIds.length + (s.evaluateAll ids).2.length =
      s.pendingIds.length := by
  induction ids generalizing s with
  | nil => rfl
  | cons id rest ih =>
    have hone := length_pendingIds_evaluate hs id
    have hrest := ih ((turns_evaluate s id).orderly hs)
    simp only [evaluateAll, forEach, List.length_append] at hrest ⊢
    omega

theorem waits_expireIfDue (s : Session) (id : Nat) : (s.expireIfDue id).1.waits = s.waits := by
  unfold expireIfDue
  split
  · rfl
  · split
    · rfl
    · split <;> rfl

theorem pendingIds_expireDue (s : Session) : s.expireDue.1.pendingIds = s.pendingIds := by
  have hwaits : s.expireDue.1.waits = s.waits := forEach_eq s waits waits_expireIfDue _
  simp only [pendingIds, hwaits]

/-! ## Timers

A timer that takes its ticket away makes no other linger run, and takes no time. So what is due
after all timers were looked at was due before, and was not looked at. -/

theorem expireIfDue_of_not_due {i : Nat} (h : ¬ s.Due i) : s.expireIfDue i = (s, []) := by
  unfold expireIfDue
  cases hw : s.waits[i]? with
  | none => rfl
  | some w =>
    cases hend : s.lingerEnd? w with
    | none => simp only [hend]
    | some instant =>
      simp only [hend]
      exact if_neg fun hdue => h ⟨w, instant, hw, hend, hdue⟩

theorem expireIfDue_of_due {i : Nat} {w : Wait} {instant : Nat} (hw : s.waits[i]? = some w)
    (hend : s.lingerEnd? w = some instant) (hdue : instant ≤ s.now) :
    (s.expireIfDue i).1 = s.withController (s.controller.apply (.expire w.ticket)) := by
  simp only [expireIfDue, hw, hend, expire]
  rw [if_pos hdue]

theorem due_of_expireIfDue {id i : Nat} (h : (s.expireIfDue id).1.Due i) : s.Due i ∧ i ≠ id := by
  by_cases hid : s.Due id
  · obtain ⟨w, instant, hw, hend, hdue⟩ := hid
    rw [expireIfDue_of_due hw hend hdue] at h
    obtain ⟨v, later, hv, hend', hdue'⟩ := h
    obtain ⟨hholds, hrelease⟩ := lingerEnd?_eq_some_iff.mp hend'
    refine ⟨⟨v, later, hv, lingerEnd?_eq_some_iff.mpr ⟨?_, hrelease⟩, hdue'⟩, ?_⟩
    · exact (Controller.holds_expire_iff.mp hholds).1
    · rintro rfl
      obtain rfl := Option.some.inj (hv.symm.trans hw)
      exact Bool.noConfusion ((Controller.holds_expire_self _ _).symm.trans hholds)
  · rw [expireIfDue_of_not_due hid] at h
    refine ⟨h, ?_⟩
    rintro rfl
    exact hid h

theorem due_of_forEach {ids : List Nat} {i : Nat} (h : (forEach expireIfDue ids s).1.Due i) :
    s.Due i ∧ i ∉ ids := by
  induction ids generalizing s with
  | nil => exact ⟨h, List.not_mem_nil⟩
  | cons id rest ih =>
    obtain ⟨hlater, hrest⟩ := ih h
    obtain ⟨hbefore, hne⟩ := due_of_expireIfDue hlater
    exact ⟨hbefore, List.not_mem_cons_of_ne_of_not_mem hne hrest⟩

/-- After the timers no linger is due. -/
theorem noneDue_expireDue (s : Session) : s.expireDue.1.NoneDue := by
  intro i h
  obtain ⟨⟨w, instant, hw, -⟩, hi⟩ := due_of_forEach h
  exact hi (List.mem_range.mpr (Array.getElem?_eq_some_iff.mp hw).1)

/-! ## Rounds that settle nobody

An evaluation that reports nothing has changed nothing. So each call of such a round was evaluated
in the very session that the round leaves behind, and would not be settled there either. -/

theorem stays_of_conclude_eq_nil {w : Wait} (h : (s.conclude w (s.isCancelled w)).2 = []) :
    s.Stays w := by
  unfold Stays
  cases hv : s.controller.verdict w.ticket (s.isCancelled w) with
  | granted =>
    simp only [conclude, hv] at h
    cases h
  | withdrawn =>
    simp only [conclude, hv] at h
    cases h
  | blocked => exact Or.inl rfl
  | orphaned => exact Or.inr rfl

theorem evaluate_of_no_event {id : Nat} (h : (s.evaluate id).2 = []) :
    (s.evaluate id).1 = s ∧ ∀ w, s.waits[id]? = some w → w.phase = .pending → s.Stays w := by
  unfold evaluate at h ⊢
  cases hw : s.waits[id]? with
  | none => simp
  | some w =>
    simp only [hw] at h ⊢
    by_cases hpending : w.isPending = true
    · rw [if_pos hpending] at h ⊢
      have hstays := stays_of_conclude_eq_nil h
      refine ⟨congrArg Prod.fst (conclude_of_stays hstays), ?_⟩
      rintro v heq -
      obtain rfl := Option.some.inj heq
      exact hstays
    · rw [if_neg hpending]
      refine ⟨rfl, ?_⟩
      rintro v heq hv
      obtain rfl := Option.some.inj heq
      exact absurd (Wait.isPending_iff.mpr hv) hpending

theorem evaluateAll_of_no_event {ids : List Nat} (h : (s.evaluateAll ids).2 = []) :
    (s.evaluateAll ids).1 = s ∧
      ∀ id ∈ ids, ∀ w, s.waits[id]? = some w → w.phase = .pending → s.Stays w := by
  induction ids with
  | nil => exact ⟨rfl, by simp⟩
  | cons id rest ih =>
    simp only [evaluateAll, forEach, List.append_eq_nil_iff] at h ⊢
    obtain ⟨hsame, hstays⟩ := evaluate_of_no_event h.1
    rw [hsame] at h ⊢
    obtain ⟨hrest, hothers⟩ := ih h.2
    refine ⟨hrest, fun i hi => ?_⟩
    rcases List.mem_cons.mp hi with rfl | hi
    · exact hstays
    · exact hothers i hi

/-- A pass that settles nobody leaves the session as it was, and at rest. -/
theorem atRest_of_no_event (h : (s.evaluateAll s.pendingIds).2 = []) :
    (s.evaluateAll s.pendingIds).1 = s ∧ s.AtRest := by
  obtain ⟨hsame, hstays⟩ := evaluateAll_of_no_event h
  refine ⟨hsame, fun i w hw hpending => ?_⟩
  exact hstays i (mem_pendingIds_iff.mpr ⟨w, hw, hpending⟩) w hw hpending

/-! ## Settling ends at rest -/

/-- With more rounds than calls that wait, the last round is one that settles nobody. So the session
is left as the timers of that round left it. -/
theorem last_round {fuel : Nat} (hs : s.Orderly) (hfuel : s.pendingIds.length < fuel) :
    (∃ m : Session, (settleRounds fuel s).1 = m.expireDue.1) ∧ (settleRounds fuel s).1.AtRest := by
  -- On the rounds: one that settles somebody uses up a call that waits.
  induction fuel generalizing s with
  | zero => exact absurd hfuel (Nat.not_lt_zero _)
  | succ fuel ih =>
    have hexpired := (turns_expireDue s).orderly hs
    have hevaluated := (turns_evaluateAll s.expireDue.1 s.expireDue.1.pendingIds).orderly hexpired
    have hcount := length_pendingIds_evaluateAll hexpired s.expireDue.1.pendingIds
    have hsame := congrArg List.length (pendingIds_expireDue s)
    simp only [settleRounds]
    split
    case isTrue hdone =>
      obtain ⟨hunchanged, hrest⟩ := atRest_of_no_event (List.isEmpty_iff.mp hdone)
      rw [hunchanged]
      exact ⟨⟨s, rfl⟩, hrest⟩
    case isFalse hsettled =>
      have hpos := List.length_pos_iff.mpr fun hnil => hsettled (List.isEmpty_iff.mpr hnil)
      exact ih hevaluated (by omega)

/-- **Settling ends at rest.** -/
theorem atRest_settle (hs : s.Orderly) : s.settle.1.AtRest :=
  (last_round hs (Nat.lt_succ_self _)).2

/-- **Settling leaves no linger that has ended.** -/
theorem noneDue_settle (hs : s.Orderly) : s.settle.1.NoneDue := by
  obtain ⟨m, hm⟩ := (last_round hs (Nat.lt_succ_self _)).1
  rw [settle, hm]
  exact noneDue_expireDue m

/-- Acts that do nothing do nothing one after another. -/
theorem forEach_eq_self {act : Session → Nat → Session × List Event}
    (hact : ∀ id, act s id = (s, [])) (ids : List Nat) : forEach act ids s = (s, []) := by
  induction ids with
  | nil => rfl
  | cons id rest ih => simp only [forEach, hact, ih, List.append_nil]

theorem AtRest.evaluateAll_eq (hrest : s.AtRest) (ids : List Nat) :
    s.evaluateAll ids = (s, []) := by
  refine forEach_eq_self (fun id => ?_) ids
  unfold evaluate
  cases hw : s.waits[id]? with
  | none => rfl
  | some w =>
    dsimp only
    split
    case isTrue hpending =>
      exact conclude_of_stays (hrest id w hw (Wait.isPending_iff.mp hpending))
    case isFalse => rfl

theorem NoneDue.expireDue_eq (hnone : s.NoneDue) : s.expireDue = (s, []) :=
  forEach_eq_self (fun id => expireIfDue_of_not_due (hnone id)) _

theorem AtRest.settleRounds_eq (hrest : s.AtRest) (hnone : s.NoneDue) (fuel : Nat) :
    settleRounds fuel s = (s, []) := by
  cases fuel with
  | zero => rfl
  | succ fuel =>
    simp only [settleRounds, hnone.expireDue_eq, hrest.evaluateAll_eq]
    rfl

/-- **A session at rest has nothing to settle.** -/
theorem AtRest.settle_eq (hrest : s.AtRest) (hnone : s.NoneDue) : s.settle = (s, []) :=
  hrest.settleRounds_eq hnone _

theorem atRest_step (hs : s.Orderly) (what : Step) : (s.step what).1.AtRest := by
  simp only [step]
  exact atRest_settle ((replays_perform s what).orderly hs)

theorem noneDue_step (hs : s.Orderly) (what : Step) : (s.step what).1.NoneDue := by
  simp only [step]
  exact noneDue_settle ((replays_perform s what).orderly hs)

theorem AtRest.run (hrest : s.AtRest) (hs : s.Orderly) (steps : List Step) :
    (s.run steps).1.AtRest := by
  induction steps generalizing s with
  | nil => exact hrest
  | cons what rest ih =>
    simp only [run]
    exact ih (atRest_step hs what) ((replays_step s what).orderly hs)

theorem atRest_new (capacity : Capacity) (linger : Span) : (new capacity linger).AtRest := by
  intro i w hw
  simp [new] at hw

/-! ## Why somebody waits -/

variable {l : Ledger}

/-- The room is never empty when somebody who waits is evaluated. -/
theorem verdict_ne_orphaned (hl : l.Accounts s) {i : Nat} {w : Wait} (hw : s.waits[i]? = some w)
    (hpending : w.phase = .pending) (cancelled : Bool) :
    s.controller.verdict w.ticket cancelled ≠ .orphaned := by
  intro horphaned
  have hwait := (hl.place_eq_waiting_iff hw).mpr hpending
  obtain ⟨top, htop⟩ := hl.sound.waiting.exists_topPriority hwait
  have hnone := (Controller.verdict_eq_orphaned_iff.mp horphaned).2
  rw [← hl.controller, htop] at hnone
  cases hnone

/-- At rest, nobody who waits was cancelled, and there is no slot for anybody. -/
theorem AtRest.refuses (hrest : s.AtRest) (hl : l.Accounts s) {i : Nat} {w : Wait}
    (hw : s.waits[i]? = some w) (hpending : w.phase = .pending) :
    s.isCancelled w = false ∧ s.controller.Refuses w.ticket := by
  rcases hrest i w hw hpending with hblocked | horphaned
  · exact Controller.verdict_eq_blocked_iff.mp hblocked
  · exact absurd horphaned (verdict_ne_orphaned hl hw hpending _)

theorem AtRest.isFull (hrest : s.AtRest) (hl : l.Accounts s) {i : Nat} {w : Wait}
    (hw : s.waits[i]? = some w) (hpending : w.phase = .pending) : s.controller.IsFull := by
  have hwait := (hl.place_eq_waiting_iff hw).mpr hpending
  obtain ⟨top, htop⟩ := hl.sound.waiting.exists_topPriority hwait
  -- Somebody of the highest class waits, and for him only room can be missing.
  obtain ⟨⟨t, ht, htop_eq⟩, -⟩ := (hl.sound.waiting.topPriority_eq_some_iff top).mp htop
  obtain ⟨v, hv, rfl⟩ := hl.exists_wait (t := t) (by simp [show l.place t = .waiting from ht])
  obtain ⟨-, -, top', htop', hroom⟩ := hrest.refuses hl hv ((hl.place_eq_waiting_iff hv).mp ht)
  rw [← hl.controller, htop] at htop'
  obtain rfl := Option.some.inj htop'
  rw [← Controller.hasRoom_eq_false_iff, ← Bool.not_eq_true]
  exact fun h => hroom h htop_eq

/-- At rest, no sequence of evaluations changes anything. -/
theorem AtRest.applyAll_eq (hrest : s.AtRest) (hl : l.Accounts s) {txs : List Transaction}
    (htxs : ∀ tx ∈ txs, ∃ u, tx = .evaluate u false) (hallow : l.AllowsAll txs) :
    l.applyAll txs = l := by
  induction txs with
  | nil => rfl
  | cons tx rest ih =>
    obtain ⟨u, rfl⟩ := htxs tx List.mem_cons_self
    have hwait : l.place u = .waiting := hallow.1
    obtain ⟨v, hv, rfl⟩ := hl.exists_wait (t := u) (by simp [hwait])
    obtain ⟨-, hrefuses⟩ := hrest.refuses hl hv ((hl.place_eq_waiting_iff hv).mp hwait)
    rw [← hl.controller] at hrefuses
    have hsame : l.apply (.evaluate v.ticket false) = l :=
      Ledger.apply_evaluate_of_stays (Or.inl (Controller.verdict_of_refuses hrefuses))
    have hallow' := hallow.2
    rw [hsame] at hallow'
    rw [Ledger.applyAll_cons, hsame]
    exact ih (fun w hw => htxs w (List.mem_cons_of_mem _ hw)) hallow'

/-- **Nobody waits in vain.** After every step of every run: no evaluation would change anything; if
a call waits, the capacity is limited and the limit is reached, nobody holds the call's entry, and
the call is not cancelled; and with one slot at least there is an occupied entry, and the removal of
any occupied entry, which makes the entries fewer, leaves a way in for the call. -/
theorem nobody_waits_in_vain (capacity : Capacity) (linger : Span) (steps : List Step) :
    let s := ((new capacity linger).run steps).1
    ∃ l : Ledger, l.Accounts s ∧
      (∀ txs, (∀ tx ∈ txs, ∃ u, tx = .evaluate u false) → l.AllowsAll txs → l.applyAll txs = l) ∧
      ∀ (i : Nat) (w : Wait), s.waits[i]? = some w → w.phase = .pending →
        ∃ m, s.controller.capacity = .limited m ∧ m.toNat ≤ s.controller.numEntries ∧
          s.controller.isOccupied w.ticket.entry = false ∧ s.isCancelled w = false ∧
          (0 < m.toNat →
            (∃ e, s.controller.isOccupied e = true) ∧
            ∀ e, s.controller.isOccupied e = true →
              (∃ removal, l.Removal e removal) ∧
              ∀ removal, l.Removal e removal →
                (l.applyAll removal).controller.numEntries < s.controller.numEntries ∧
                (l.applyAll removal).WayIn w.ticket) := by
  intro s
  have hrest : s.AtRest := (atRest_new capacity linger).run (orderly_new capacity linger) steps
  obtain ⟨l, hl⟩ : s.Orderly := (orderly_new capacity linger).run steps
  refine ⟨l, hl, fun txs htxs hallow => hrest.applyAll_eq hl htxs hallow, ?_⟩
  intro i w hw hpending
  obtain ⟨m, hcap, hfull⟩ := hrest.isFull hl hw hpending
  obtain ⟨hcancelled, hfree, -⟩ := hrest.refuses hl hw hpending
  refine ⟨m, hcap, hfull, hfree, hcancelled, fun hm => ?_⟩
  rw [← hl.controller] at hcap hfull ⊢
  have hwait := (hl.place_eq_waiting_iff hw).mpr hpending
  refine ⟨?_, fun e he => ⟨hl.sound.exists_removal e, fun removal hremoval => ?_⟩⟩
  · obtain ⟨u, hu⟩ := hl.sound.exists_holder (hm.trans_le hfull)
    exact ⟨u.entry, (hl.sound.isOccupied_iff u.entry).mpr ⟨u, hu, rfl⟩⟩
  · exact ⟨hremoval.numEntries_lt he, hremoval.wayIn hl.sound hcap hm hwait⟩

/-- One slot, which two callers share, and two who wait for another entry, of whom one goes away.
The other one can still come in. -/
theorem nobody_waits_in_vain_one_slot :
    let a : Entry := ⟨"udp", "", "a"⟩
    let b : Entry := ⟨"udp", "", "b"⟩
    let steps := [.setCapacity (.limited 1), .wait a "x" .standard "k" none,
      .wait b "x" .standard "k" none, .wait a "x" .standard "n" none,
      .wait b "x" .standard "n" none, .abandon 3]
    let s := ((new (.limited 2) .zero).run steps).1
    s.waits[1]? = some ⟨⟨1, b, "x", .standard⟩, "k", 0, none, .pending⟩ ∧
      s.controller.isOccupied b = false ∧
      ∃ l : Ledger, l.Accounts s ∧ ∃ removal, l.Removal a removal ∧
        (l.applyAll removal).controller.numEntries < s.controller.numEntries ∧
        (l.applyAll removal).WayIn ⟨1, b, "x", .standard⟩ := by
  intro a b steps s
  have hfacts : s.waits[1]? = some ⟨⟨1, b, "x", .standard⟩, "k", 0, none, .pending⟩ ∧
      s.controller.capacity = .limited 1 ∧ s.controller.isOccupied a = true := by
    subst s steps b a
    decide_cbv
  obtain ⟨l, hl, -, hwaits⟩ := nobody_waits_in_vain (.limited 2) .zero steps
  have hs : ((new (.limited 2) .zero).run steps).1 = s := rfl
  rw [hs] at hl hwaits
  -- The facts at hand are all that matters of the session; it need not be computed again.
  clear_value s
  obtain ⟨hw, hone, hocc⟩ := hfacts
  obtain ⟨m, hcap, -, hfree, -, hremovable⟩ := hwaits 1 _ hw rfl
  obtain rfl : 1 = m := Capacity.limited.inj (hone.symm.trans hcap)
  obtain ⟨-, hentries⟩ := hremovable (by decide)
  obtain ⟨⟨removal, hremoval⟩, hin⟩ := hentries a hocc
  exact ⟨hw, hfree, l, hl, removal, hremoval, hin removal hremoval⟩

end Admission.Session
