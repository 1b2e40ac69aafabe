import Admission.Controller

/-!
# What a verdict says

`Controller.verdict` asks its questions one after another. Read backwards, each of its four answers
says exactly what was the case, and what the answer was given for; the theory reads verdicts in
this direction only and never opens the definition again. Beside each answer stands what carrying
it out does to the controller.
-/

set_option autoImplicit false

namespace Admission

/-- An evaluation that ended a ticket's wait. -/
structure Ruling where
  ticket : Ticket
  verdict : Verdict
  /-- Did somebody hold the entry just before? -/
  shared : Bool
deriving DecidableEq

/-- Did the ruling let the ticket in onto an entry that nobody held? -/
def Ruling.opens (r : Ruling) : Bool := r.verdict = .granted && !r.shared

namespace Controller

variable {c : Controller} {t : Ticket} {cancelled : Bool}

/-- There is no slot for a waiting ticket: its entry is free, and either there is no room or a
higher class waits. -/
def Refuses (c : Controller) (t : Ticket) : Prop :=
  c.isOccupied t.entry = false ∧
    ∃ top, c.waiting.topPriority = some top ∧ (c.hasRoom = true → t.priority ≠ top)

/-- A verdict is about the ticket's entry, the highest class that waits and the room, and about
nothing else. -/
theorem verdict_congr {c' : Controller} (hoccupied : c'.isOccupied t.entry = c.isOccupied t.entry)
    (htop : c'.waiting.topPriority = c.waiting.topPriority) (hroom : c'.hasRoom = c.hasRoom) :
    c'.verdict t cancelled = c.verdict t cancelled := by
  simp only [verdict, hoccupied, htop, hroom]

/-! ## The four answers -/

theorem verdict_eq_granted_iff :
    c.verdict t cancelled = .granted ↔
      c.isOccupied t.entry = true ∨
        (c.hasRoom = true ∧ c.waiting.topPriority = some t.priority) := by
  unfold verdict
  cases c.isOccupied t.entry with
  | true => simp
  | false =>
    cases c.waiting.topPriority with
    | none => simp
    | some top =>
      by_cases hslot : c.hasRoom = true ∧ t.priority = top
      · simp [hslot]
      · have hother : ¬ (c.hasRoom = true ∧ top = t.priority) := fun h => hslot ⟨h.1, h.2.symm⟩
        cases cancelled <;> simp [hslot, hother]

theorem verdict_eq_orphaned_iff :
    c.verdict t cancelled = .orphaned ↔
      c.isOccupied t.entry = false ∧ c.waiting.topPriority = none := by
  unfold verdict
  cases c.isOccupied t.entry with
  | true => simp
  | false =>
    cases c.waiting.topPriority with
    | none => simp
    | some top =>
      by_cases hslot : c.hasRoom = true ∧ t.priority = top
      · simp [hslot]
      · cases cancelled <;> simp [hslot]

/-- Where there is no slot, the ticket's token alone decides. -/
theorem verdict_of_refuses (h : c.Refuses t) :
    c.verdict t cancelled = if cancelled then .withdrawn else .blocked := by
  obtain ⟨hfree, top, htop, hroom⟩ := h
  have hslot : ¬ (c.hasRoom = true ∧ t.priority = top) := fun h => hroom h.1 h.2
  simp [verdict, hfree, htop, hslot]

theorem refuses_iff :
    c.Refuses t ↔ c.verdict t cancelled ≠ .granted ∧ c.verdict t cancelled ≠ .orphaned := by
  constructor
  · intro h
    rw [verdict_of_refuses h]
    cases cancelled <;> simp
  · rintro ⟨hg, ho⟩
    -- What `granted` and `orphaned` ask for is denied one by one; what is left is the refusal.
    rw [ne_eq, verdict_eq_granted_iff, not_or] at hg
    rw [ne_eq, verdict_eq_orphaned_iff] at ho
    have hfree : c.isOccupied t.entry = false := Bool.not_eq_true _ ▸ hg.1
    cases htop : c.waiting.topPriority with
    | none => exact absurd ⟨hfree, htop⟩ ho
    | some top => exact ⟨hfree, top, htop, fun hroom heq => hg.2 ⟨hroom, heq ▸ htop⟩⟩

theorem verdict_eq_withdrawn_iff :
    c.verdict t cancelled = .withdrawn ↔ cancelled = true ∧ c.Refuses t := by
  constructor
  · intro h
    have href : c.Refuses t := by
      refine refuses_iff.mpr (⟨?_, ?_⟩ : c.verdict t cancelled ≠ _ ∧ c.verdict t cancelled ≠ _)
      · simp [h]
      · simp [h]
    rw [verdict_of_refuses href] at h
    cases cancelled with
    | true => exact ⟨rfl, href⟩
    | false => cases h
  · rintro ⟨rfl, href⟩
    exact verdict_of_refuses href

theorem verdict_eq_blocked_iff :
    c.verdict t cancelled = .blocked ↔ cancelled = false ∧ c.Refuses t := by
  constructor
  · intro h
    have href : c.Refuses t := by
      refine refuses_iff.mpr (⟨?_, ?_⟩ : c.verdict t cancelled ≠ _ ∧ c.verdict t cancelled ≠ _)
      · simp [h]
      · simp [h]
    rw [verdict_of_refuses href] at h
    cases cancelled with
    | true => cases h
    | false => exact ⟨rfl, href⟩
  · rintro ⟨rfl, href⟩
    exact verdict_of_refuses href

/-! ## Carrying them out -/

theorem apply_evaluate_of_granted (h : c.verdict t cancelled = .granted) :
    c.apply (.evaluate t cancelled) = c.grant t := by
  simp only [apply, h, execute]

theorem apply_evaluate_of_withdrawn (h : c.verdict t cancelled = .withdrawn) :
    c.apply (.evaluate t cancelled) = c.withdraw t := by
  simp only [apply, h, execute]

theorem apply_evaluate_of_blocked (h : c.verdict t cancelled = .blocked) :
    c.apply (.evaluate t cancelled) = c := by
  simp only [apply, h, execute]

theorem apply_evaluate_of_orphaned (h : c.verdict t cancelled = .orphaned) :
    c.apply (.evaluate t cancelled) = c := by
  simp only [apply, h, execute]

theorem capacity_apply_evaluate (c : Controller) (t : Ticket) (cancelled : Bool) :
    (c.apply (.evaluate t cancelled)).capacity = c.capacity := by
  simp only [apply]
  cases c.verdict t cancelled with
  | granted => rfl
  | withdrawn => rfl
  | blocked => rfl
  | orphaned => rfl

/-! ## The rulings of a sequence of transactions

Not every evaluation ends a wait. Those that do are the rulings, and of each it is kept whether the
entry was held just before, since only then does a ticket get in without a slot of its own. -/

/-- The ruling that a transaction brings, if it ends a wait by an evaluation. -/
def ruling? (c : Controller) : Transaction → Option Ruling
  | .evaluate t cancelled =>
    match c.verdict t cancelled with
    | .granted => some ⟨t, .granted, c.isOccupied t.entry⟩
    | .withdrawn => some ⟨t, .withdrawn, c.isOccupied t.entry⟩
    | .blocked => none
    | .orphaned => none
  | _ => none

def rulings (c : Controller) : List Transaction → List Ruling
  | [] => []
  | tx :: rest => (c.ruling? tx).toList ++ (c.apply tx).rulings rest

theorem ruling?_eq_some_iff {tx : Transaction} {r : Ruling} :
    c.ruling? tx = some r ↔
      ∃ cancelled, tx = .evaluate r.ticket cancelled ∧ c.verdict r.ticket cancelled = r.verdict ∧
        (r.verdict = .granted ∨ r.verdict = .withdrawn) ∧
        c.isOccupied r.ticket.entry = r.shared := by
  constructor
  · intro h
    cases tx with
    | evaluate t cancelled =>
      simp only [ruling?] at h
      cases hv : c.verdict t cancelled with
      | granted =>
        rw [hv] at h
        obtain rfl := Option.some.inj h
        exact ⟨cancelled, rfl, hv, Or.inl rfl, rfl⟩
      | withdrawn =>
        rw [hv] at h
        obtain rfl := Option.some.inj h
        exact ⟨cancelled, rfl, hv, Or.inr rfl, rfl⟩
      | blocked => rw [hv] at h; cases h
      | orphaned => rw [hv] at h; cases h
    | _ => cases h
  · rintro ⟨cancelled, rfl, hv, hruled, hshared⟩
    rcases hruled with hg | hw
    · rw [hg] at hv
      simp only [ruling?, hv]
      rw [hshared, ← hg]
    · rw [hw] at hv
      simp only [ruling?, hv]
      rw [hshared, ← hw]

end Controller

end Admission
