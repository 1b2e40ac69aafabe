import Admission.Proofs.History

/-!
# Who has a handle

A caller is given its handle when its call is settled as admitted, and has it until it drops or
loses it. Both are told by the steps of a run and the answers to them; whether the handle was
released does not matter:

> a turn gives handles to those whom it settles as admitted, and a request takes one away only if it
> drops or loses it.
-/

set_option autoImplicit false

namespace Admission

/-- The caller was given a handle, and has neither dropped nor lost it since. -/
def HasHandle (steps : List Step) (answers : List Answer) (id : Nat) : Prop :=
  ∃ (k : Nat) (a : Answer), answers[k]? = some a ∧ (∃ clock, ⟨id, .admitted, clock⟩ ∈ a.settled) ∧
    ∀ j, k < j → steps[j]? ≠ some (Step.drop id) ∧ steps[j]? ≠ some (Step.lose id)

namespace Session

variable {s s₁ : Session} {what : Step} {events : List Event}

/-- The caller has its handle. -/
def Held (s : Session) (i : Nat) : Prop := ∃ w, s.waits[i]? = some w ∧ w.isHeld = true

theorem Held.congr {i : Nat} (hwaits : s₁.waits = s.waits) : s₁.Held i ↔ s.Held i := by
  rw [Held, Held, hwaits]

theorem held_of_setPhase_of_ne {i j : Nat} {phase : Phase}
    (hwaits : s₁.waits = (s.setPhase i phase).waits) (hne : j ≠ i) : s₁.Held j ↔ s.Held j := by
  simp only [Held, hwaits, getElem?_setPhase, if_neg (Ne.symm hne)]

theorem held_of_setPhase_self {i : Nat} {w : Wait} {phase : Phase}
    (hwaits : s₁.waits = (s.setPhase i phase).waits) (hw : s.waits[i]? = some w) :
    s₁.Held i ↔ ({ w with phase := phase } : Wait).isHeld = true := by
  simp only [Held, getElem?_setPhase_self hwaits hw, Option.some.injEq, exists_eq_left']

theorem not_held_of_pending {i : Nat} {w : Wait} (hw : s.waits[i]? = some w)
    (hpending : w.phase = .pending) : ¬ s.Held i := by
  rintro ⟨v, hv, hheld⟩
  obtain rfl := Option.some.inj (hw.symm.trans hv)
  simp [Wait.isHeld, hpending] at hheld

/-- **A turn gives handles to those whom it settles as admitted**, and takes none away. -/
theorem Turn.held_iff (h : Turn s s₁ events) (hs : s.Orderly) (i : Nat) :
    s₁.Held i ↔ s.Held i ∨ ∃ clock, ⟨i, .admitted, clock⟩ ∈ events.filterMap Event.settled? := by
  rcases h.waits_cases hs with ⟨hwaits, hnobody⟩ | ⟨j, w, o, hw, hpending, hwaits, hone⟩
  · simp [Held.congr hwaits, hnobody]
  · rw [hone]
    by_cases hij : i = j
    · subst hij
      rw [held_of_setPhase_self hwaits hw]
      have hbefore := not_held_of_pending hw hpending
      cases o <;> simp [Wait.isHeld, Outcome.phase, hbefore]
    · simp [held_of_setPhase_of_ne hwaits hij, hij]

theorem Turns.held_iff (h : Turns s s₁ events) (hs : s.Orderly) (i : Nat) :
    s₁.Held i ↔ s.Held i ∨ ∃ clock, ⟨i, .admitted, clock⟩ ∈ events.filterMap Event.settled? := by
  induction h with
  | refl s => simp
  | cons hturn _ ih =>
    rw [ih (hturn.replays.orderly hs), hturn.held_iff hs, List.filterMap_append, or_assoc,
      ← exists_or]
    simp only [List.mem_append]

theorem letsGo_iff {i : Nat} (h : what.handle? = some i) :
    what.letsGo = true ↔ what = .drop i ∨ what = .lose i := by
  cases what with
  | drop id => simpa [Step.letsGo, Step.handle?] using h
  | lose id => simpa [Step.letsGo, Step.handle?] using h
  | _ => simp [Step.letsGo]

/-- **A request takes a handle away only if it drops or loses it**, and gives none. -/
theorem Request.held_iff (h : Request s what s₁ events) (hs : s.Orderly) (i : Nat) :
    s₁.Held i ↔ s.Held i ∧ what ≠ .drop i ∧ what ≠ .lose i := by
  -- A new call and one that is given up have no handle; the third case is about the handle itself.
  rcases h.waits_cases hs with ⟨e, reason, p, token, deadline, rfl, hwaits⟩ |
    ⟨j, w, rfl, hw, hwaits⟩ | ⟨j, w, r, hhandle, hw, -, hwaits⟩ | ⟨-, hwaits, -, hhandle⟩
  · have hnew : ¬ (s.newWait e reason p token deadline).isHeld = true := by
      simp [newWait, Wait.isHeld]
    have hsame : s₁.Held i ↔ s.Held i := by
      simp only [Held, hwaits, Array.getElem?_push]
      split
      case isTrue hi => simp [hi, hnew]
      case isFalse => exact Iff.rfl
    simp [hsame]
  · have hsame : s₁.Held i ↔ s.Held i := by
      obtain ⟨hget, hpending⟩ := getElem?_of_pending? hw
      by_cases hij : i = j
      · subst hij
        simp [held_of_setPhase_self hwaits hget, not_held_of_pending hget hpending, Wait.isHeld]
      · exact held_of_setPhase_of_ne hwaits hij
    simp [hsame]
  · obtain ⟨hget, hheld⟩ := held?_eq_some_iff.mp hw
    by_cases hij : i = j
    · subst hij
      have hbefore : s.Held i := ⟨w, hget, hheld⟩
      rw [held_of_setPhase_self hwaits hget, ← not_or, ← letsGo_iff hhandle]
      simp [Wait.isHeld, hbefore]
    · have hother : what ≠ .drop i ∧ what ≠ .lose i := by
        constructor
        · rintro rfl
          exact hij (Option.some.inj hhandle)
        · rintro rfl
          exact hij (Option.some.inj hhandle)
      simp [held_of_setPhase_of_ne hwaits hij, hother]
  · rw [Held.congr hwaits]
    refine ⟨fun hheld => ⟨hheld, ?_⟩, And.left⟩
    obtain ⟨w, hget, hw⟩ := hheld
    have hkept : ∀ {what' : Step}, what = what' → what'.handle? = some i →
        what'.letsGo = false := by
      rintro _ rfl hi
      exact (hhandle i w hi (held?_eq_some_iff.mpr ⟨hget, hw⟩)).1
    exact ⟨fun hdrop => Bool.noConfusion (hkept hdrop rfl),
      fun hlose => Bool.noConfusion (hkept hlose rfl)⟩

/-! ## Steps and runs -/

theorem held_step_iff (hs : s.Orderly) (what : Step) (i : Nat) :
    (s.step what).1.Held i ↔ (s.Held i ∧ what ≠ .drop i ∧ what ≠ .lose i) ∨
      ∃ clock, ⟨i, .admitted, clock⟩ ∈ (s.step what).2.settled := by
  obtain ⟨s₁, told, later, hrequest, hturns, hevents⟩ := turns_step hs what
  rw [hturns.held_iff (hrequest.replays.orderly hs), hrequest.held_iff hs, Answer.settled, hevents,
    List.filterMap_append, hrequest.settles_nobody, List.nil_append]

end Session

theorem getElem?_concat {α : Type} (l : List α) (a : α) (i : Nat) :
    (l ++ [a])[i]? = if i = l.length then some a else l[i]? := by
  have hpush : (l.toArray.push a)[i]? = if i = l.toArray.size then some a else l.toArray[i]? :=
    Array.getElem?_push
  simpa using hpush

theorem HasHandle.concat_iff {steps : List Step} {answers : List Answer}
    (hlength : answers.length = steps.length) (what : Step) (answer : Answer) (i : Nat) :
    HasHandle (steps ++ [what]) (answers ++ [answer]) i ↔
      (HasHandle steps answers i ∧ what ≠ .drop i ∧ what ≠ .lose i) ∨
        ∃ clock, ⟨i, .admitted, clock⟩ ∈ answer.settled := by
  simp only [HasHandle, getElem?_concat, hlength]
  constructor
  · rintro ⟨k, a, ha, hsettled, hlater⟩
    split at ha
    case isTrue =>
      obtain rfl := Option.some.inj ha
      exact Or.inr hsettled
    case isFalse hk =>
      have hlt : k < steps.length := by
        have hbound := (List.getElem?_eq_some_iff.mp ha).1
        omega
      refine Or.inl ⟨⟨k, a, ha, hsettled, fun j hj => ?_⟩, ?_⟩
      · have hj' := hlater j hj
        split at hj'
        case isTrue heq => simp [heq]
        case isFalse => exact hj'
      · simpa using hlater steps.length hlt
  · rintro (⟨⟨k, a, ha, hsettled, hlater⟩, hwhat⟩ | hsettled)
    · have hlt : k < steps.length := hlength ▸ (List.getElem?_eq_some_iff.mp ha).1
      refine ⟨k, a, by rw [if_neg hlt.ne, ha], hsettled, fun j hj => ?_⟩
      split
      · simpa using hwhat
      · exact hlater j hj
    · refine ⟨steps.length, answer, if_pos rfl, hsettled, fun j hj => ?_⟩
      have hnone : steps[j]? = none := List.getElem?_eq_none hj.le
      simp [hj.ne', hnone]

namespace Session

/-- **Who has a handle is told by the answers.** -/
theorem held_run_iff (capacity : Capacity) (linger : Span) (steps : List Step) (i : Nat) :
    let r := (Session.new capacity linger).run steps
    r.1.Held i ↔ HasHandle steps r.2 i := by
  refine run_induction (P := fun steps answers s => s.Held i ↔ HasHandle steps answers i)
    ?_ ?_ steps
  · simp [Held, HasHandle, Session.new]
  · intro steps what r hs ih
    rw [held_step_iff hs, HasHandle.concat_iff (length_answers _ steps), ih]

end Session

end Admission
