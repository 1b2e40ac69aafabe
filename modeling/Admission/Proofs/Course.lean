import Admission.Proofs.Ceiling
import Admission.Proofs.Replay

/-!
# The course of a call

What a session does by itself changes little of a call: a call that waits may be settled, and
nothing else is ever changed in it. Its ticket, its token, the clock at which it was made and its
deadline are written down once, and what was settled stays as it is until its caller asks for
something (`Session.Follows`).

The same for the holders: between two requests a ticket that was let in stays with its entry, until
its linger has ended (`Session.Turn.holds`).
-/

set_option autoImplicit false

namespace Admission

/-- What a settled call has become. -/
def Outcome.phase : Outcome → Phase
  | .admitted => .admitted true none
  | .cancelled => .cancelled

theorem Outcome.phase_ne_pending (o : Outcome) : o.phase ≠ .pending := by
  cases o <;> simp [phase]

theorem Outcome.phase_injective {o o' : Outcome} (h : o.phase = o'.phase) : o = o' := by
  cases o <;> cases o' <;> simp_all [phase]

/-- The call went on as it was, or it waited and was settled. -/
def Wait.Becomes (v w : Wait) : Prop :=
  w = v ∨ (v.phase = .pending ∧ ∃ o : Outcome, w = { v with phase := o.phase })

namespace Wait.Becomes

variable {u v w : Wait}

theorem trans (h : u.Becomes v) (h' : v.Becomes w) : u.Becomes w := by
  rcases h with rfl | ⟨hpending, o, rfl⟩
  · exact h'
  · rcases h' with rfl | ⟨hsettled, -⟩
    · exact Or.inr ⟨hpending, o, rfl⟩
    · cases o <;> cases hsettled

theorem eq_of_pending (h : v.Becomes w) (hw : w.phase = .pending) : w = v := by
  rcases h with rfl | ⟨-, o, rfl⟩
  · rfl
  · cases o <;> cases hw

theorem eq_of_ne_pending (h : v.Becomes w) (hv : v.phase ≠ .pending) : w = v := by
  rcases h with rfl | ⟨hpending, -⟩
  · rfl
  · exact absurd hpending hv

theorem ticket_eq (h : v.Becomes w) : w.ticket = v.ticket := by
  rcases h with rfl | ⟨-, o, rfl⟩ <;> rfl

theorem release?_eq (h : v.Becomes w) : w.release? = v.release? := by
  rcases h with rfl | ⟨hpending, o, rfl⟩
  · rfl
  · cases o <;> simp [Wait.release?, hpending, Outcome.phase]

theorem announcedDeadline?_eq (h : v.Becomes w) :
    w.announcedDeadline? = v.announcedDeadline? := by
  rcases h with rfl | ⟨-, o, rfl⟩ <;> rfl

theorem announcedEnd?_eq (h : v.Becomes w) : w.announcedEnd? = v.announcedEnd? := by
  simp only [Wait.announcedEnd?, h.release?_eq]

end Wait.Becomes

namespace Controller

variable {c : Controller} {t : Ticket}

theorem holds_expire_iff {u : Ticket} :
    (c.apply (.expire u)).holds t = true ↔
      c.holds t = true ∧ ¬ (t.entry = u.entry ∧ t.id = u.id) := by
  simp only [holds, Std.ExtTreeSet.contains_iff_mem, apply, expire, Buckets.mem_ids_remove]

theorem holds_grant_iff {u : Ticket} :
    (c.grant u).holds t = true ↔ (t.entry = u.entry ∧ t.id = u.id) ∨ c.holds t = true := by
  simp only [holds, Std.ExtTreeSet.contains_iff_mem, grant, Buckets.mem_ids_add]

/-- Only the expiry of a ticket and its evaluation touch its hold. -/
theorem holds_apply_eq {tx : Transaction} (hexpire : ∀ u, tx = .expire u → u.id ≠ t.id)
    (hevaluate : ∀ u cancelled, tx = .evaluate u cancelled → u.id ≠ t.id) :
    (c.apply tx).holds t = c.holds t := by
  refine Bool.eq_iff_iff.mpr ⟨fun h => ?_, fun h => ?_⟩
  · cases tx with
    | evaluate u cancelled =>
      unfold apply execute at h
      dsimp only at h
      split at h
      · rcases holds_grant_iff.mp h with ⟨-, hid⟩ | h
        · exact absurd hid.symm (hevaluate u cancelled rfl)
        · exact h
      · exact h
      · exact h
      · exact h
    | expire u => exact (holds_expire_iff.mp h).1
    | register u => exact h
    | abandon u => exact h
    | setCapacity k => exact h
    | setPolicy p => exact h
  · rcases holds_apply_or_expire h tx with hstays | ⟨u, rfl, hid, -⟩
    · exact hstays
    · exact absurd hid (hexpire u rfl)

theorem holds_expire_self (c : Controller) (t : Ticket) :
    (c.apply (.expire t)).holds t = false := by
  rw [← Bool.not_eq_true, holds_expire_iff]
  simp

end Controller

namespace Session

variable {s s₁ s₂ : Session} {events later : List Event}

theorem getElem?_setPhase (s : Session) (i j : Nat) (phase : Phase) :
    (s.setPhase i phase).waits[j]? =
      if i = j then s.waits[j]?.map fun w => { w with phase := phase } else s.waits[j]? :=
  Array.getElem?_modify

/-! ## One turn -/

/-- **A turn settles one call that waits, or leaves all calls as they were**, and it reports what it
does. -/
theorem Turn.waits_cases (h : Turn s s₁ events) (hs : s.Orderly) :
    (s₁.waits = s.waits ∧ events.filterMap Event.settled? = []) ∨
      ∃ i w o, s.waits[i]? = some w ∧ w.phase = .pending ∧
        s₁.waits = (s.setPhase i (Outcome.phase o)).waits ∧
        events.filterMap Event.settled? = [⟨i, o, s.clock⟩] := by
  cases h with
  | expire _ _ _ => exact Or.inl ⟨rfl, rfl⟩
  | blocked t => exact Or.inl ⟨rfl, rfl⟩
  | tick _ _ _ _ => exact Or.inl ⟨rfl, rfl⟩
  | @evaluate i w cancelled hw hpending _ =>
    obtain rfl := hs.id_eq hw
    cases hv : s.controller.verdict w.ticket cancelled with
    | granted =>
      refine Or.inr ⟨w.ticket.id, w, .admitted, hw, hpending, ?_, ?_⟩
      · simp only [conclude, hv]
        rfl
      · simp [conclude, hv, Event.settled?]
    | withdrawn =>
      refine Or.inr ⟨w.ticket.id, w, .cancelled, hw, hpending, ?_, ?_⟩
      · simp only [conclude, hv]
        rfl
      · simp [conclude, hv, Event.settled?]
    | blocked =>
      rw [conclude_of_stays (Or.inl hv)]
      exact Or.inl ⟨rfl, rfl⟩
    | orphaned =>
      rw [conclude_of_stays (Or.inr hv)]
      exact Or.inl ⟨rfl, rfl⟩

theorem conclude_cancelledTokens (s : Session) (w : Wait) (cancelled : Bool) :
    (s.conclude w cancelled).1.cancelledTokens = s.cancelledTokens := by
  unfold conclude
  split <;> rfl

/-- What turns leave alone. -/
structure Follows (s s₁ : Session) : Prop where
  clock_le : s.clock ≤ s₁.clock
  cancelledTokens : s₁.cancelledTokens = s.cancelledTokens
  size : s₁.waits.size = s.waits.size
  waits : ∀ (i : Nat) (v : Wait), s.waits[i]? = some v → ∃ w, s₁.waits[i]? = some w ∧ v.Becomes w

namespace Follows

theorem refl (s : Session) : Follows s s := ⟨le_rfl, rfl, rfl, fun _ v hv => ⟨v, hv, Or.inl rfl⟩⟩

theorem trans (h : Follows s s₁) (h' : Follows s₁ s₂) : Follows s s₂ := by
  refine ⟨h.clock_le.trans h'.clock_le, h'.cancelledTokens.trans h.cancelledTokens,
    h'.size.trans h.size, fun i u hu => ?_⟩
  obtain ⟨v, hv, huv⟩ := h.waits i u hu
  obtain ⟨w, hw, hvw⟩ := h'.waits i v hv
  exact ⟨w, hw, huv.trans hvw⟩

theorem exists_before (h : Follows s s₁) {i : Nat} {w : Wait} (hw : s₁.waits[i]? = some w) :
    ∃ v, s.waits[i]? = some v ∧ v.Becomes w := by
  obtain ⟨hi, -⟩ := Array.getElem?_eq_some_iff.mp hw
  rw [h.size] at hi
  obtain ⟨w', hw', hbecomes⟩ := h.waits i s.waits[i] (Array.getElem?_eq_getElem hi)
  obtain rfl := Option.some.inj (hw.symm.trans hw')
  exact ⟨s.waits[i], Array.getElem?_eq_getElem hi, hbecomes⟩

end Follows

theorem Turn.follows (h : Turn s s₁ events) (hs : s.Orderly) : Follows s s₁ := by
  have hclock : s.clock ≤ s₁.clock := by
    cases h with
    | expire _ _ _ => exact le_rfl
    | evaluate _ _ _ => exact (conclude_clock s _ _).ge
    | blocked t => exact le_rfl
    | tick hle _ _ _ => exact hle
  have htokens : s₁.cancelledTokens = s.cancelledTokens := by
    cases h with
    | expire _ _ _ => rfl
    | evaluate _ _ _ => exact conclude_cancelledTokens s _ _
    | blocked t => rfl
    | tick _ _ _ _ => rfl
  rcases h.waits_cases hs with ⟨hwaits, -⟩ | ⟨i, w, o, hw, hpending, hwaits, -⟩
  · exact ⟨hclock, htokens, by rw [hwaits], fun j v hv => ⟨v, hwaits ▸ hv, Or.inl rfl⟩⟩
  · refine ⟨hclock, htokens, by rw [hwaits]; exact Array.size_modify, fun j v hv => ?_⟩
    rw [hwaits, getElem?_setPhase]
    by_cases hij : i = j
    · subst hij
      obtain rfl := Option.some.inj (hw.symm.trans hv)
      rw [if_pos rfl, hw]
      exact ⟨_, rfl, Or.inr ⟨hpending, o, rfl⟩⟩
    · rw [if_neg hij]
      exact ⟨v, hv, Or.inl rfl⟩

/-- **Who was let in stays until his linger has ended.** -/
theorem Turn.holds (h : Turn s s₁ events) (hs : s.Orderly) {i : Nat} {w : Wait}
    (hw : s.waits[i]? = some w) (hadmitted : w.phase ≠ .pending) :
    s₁.controller.holds w.ticket = s.controller.holds w.ticket ∨
      (s₁.controller.holds w.ticket = false ∧
        ∃ instant, s.lingerEnd? w = some instant ∧ instant ≤ s.now) := by
  -- A turn that is about another call does not touch the ticket: it has another number.
  have hother : ∀ {j : Nat} {v : Wait}, s.waits[j]? = some v → v ≠ w →
      v.ticket.id ≠ w.ticket.id := by
    intro j v hv hne hid
    rw [hs.id_eq hv, hs.id_eq hw] at hid
    rw [hid, hw] at hv
    exact hne (Option.some.inj hv).symm
  cases h with
  | @expire j v instant hv hend hdue =>
    by_cases hvw : v = w
    · subst hvw
      exact Or.inr ⟨Controller.holds_expire_self _ _, instant, hend, hdue⟩
    · refine Or.inl (Controller.holds_apply_eq ?_ ?_)
      · intro u hu
        cases hu
        exact hother hv hvw
      · intro u c hu
        cases hu
  | @evaluate j v cancelled hv hpending _ =>
    have hvw : v ≠ w := by
      rintro rfl
      exact hadmitted hpending
    have hsame : (s.controller.apply (.evaluate v.ticket cancelled)).holds w.ticket =
        s.controller.holds w.ticket := by
      refine Controller.holds_apply_eq ?_ ?_
      · intro u hu
        cases hu
      · intro u c hu
        cases hu
        exact hother hv hvw
    left
    rw [← hsame]
    unfold conclude
    split <;> rfl
  | blocked t => exact Or.inl rfl
  | tick _ _ _ _ => exact Or.inl rfl

/-! ## Several turns -/

theorem Turns.follows (h : Turns s s₁ events) (hs : s.Orderly) : Follows s s₁ := by
  induction h with
  | refl s => exact .refl s
  | cons hturn _ ih => exact (hturn.follows hs).trans (ih (hturn.replays.orderly hs))

end Session

end Admission
