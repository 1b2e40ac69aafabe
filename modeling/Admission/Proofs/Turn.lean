import Admission.Proofs.Account
import Admission.Session.Clock

/-!
# A session's own work, turn by turn

Settling goes through rounds, timers and passes, but whatever it does is made of two kinds of
turns: a linger that has ended takes its ticket from the entry, and a call that waits is evaluated.
Moving the clock adds a third kind, and what is said of it here is all that the theory ever uses:

> the clock moves on only when nobody who waits is cancelled and no linger has ended, and never past
> an end.

`Session.Turn` lists the turns with everything that is known when they happen, and `Session.Turns`
strings them together. Whatever is to hold of all that a session does by itself has to be shown for
one turn, and the rounds are not looked at again.
-/

set_option autoImplicit false

namespace Admission.Session

theorem lingerEnd?_eq_some_iff {s : Session} {w : Wait} {instant : Nat} :
    s.lingerEnd? w = some instant ↔
      s.controller.holds w.ticket = true ∧
        ∃ announced, w.release? = some (.ends announced instant) := by
  unfold lingerEnd?
  rcases w.release? with _ | (⟨announced, freed⟩ | _)
  · simp
  · simp
  · simp

/-- The linger of the call has ended, and its ticket is with its entry still. -/
def Due (s : Session) (i : Nat) : Prop :=
  ∃ (w : Wait) (instant : Nat), s.waits[i]? = some w ∧ s.lingerEnd? w = some instant ∧
    instant ≤ s.now

/-- No linger has ended whose ticket is with its entry. -/
def NoneDue (s : Session) : Prop := ∀ i, ¬ s.Due i

/-- One turn of a session's own work, and what it reports. -/
inductive Turn : Session → Session → List Event → Prop
  /-- A linger that has ended takes its ticket from the entry. -/
  | expire {s : Session} {i : Nat} {w : Wait} {instant : Nat} (hw : s.waits[i]? = some w)
      (hend : s.lingerEnd? w = some instant) (hdue : instant ≤ s.now) :
      Turn s (s.withController (s.controller.apply (.expire w.ticket)))
        [.expired w.ticket (s.controller.wouldFree w.ticket)]
  /-- A call that waits is evaluated. The first time its own deadline is not looked at. -/
  | evaluate {s : Session} {i : Nat} {w : Wait} {cancelled : Bool} (hw : s.waits[i]? = some w)
      (hpending : w.phase = .pending)
      (hcancelled : cancelled = s.isCancelled w ∨ cancelled = s.isTokenCancelled w.token) :
      Turn s (s.conclude w cancelled).1 (s.conclude w cancelled).2
  /-- It is reported that a call has to wait. -/
  | blocked (s : Session) (t : Ticket) : Turn s s [.blocked t]
  /-- The clock moves on, and not past an end. -/
  | tick {s : Session} {ms : Nat} (hle : s.clock ≤ ms)
      (hrest : ∀ (i : Nat) (w : Wait), s.waits[i]? = some w → w.phase = .pending →
        s.isCancelled w = false)
      (hlingers : s.NoneDue)
      (hstops : ∀ instant ∈ s.ends, s.now < instant → ms ≤ millisOf instant) :
      Turn s { s with clock := ms } []

/-- Turns one after another, and what they report. -/
inductive Turns : Session → Session → List Event → Prop
  | refl (s : Session) : Turns s s []
  | cons {s s₁ s₂ : Session} {events later : List Event} (h : Turn s s₁ events)
      (hrest : Turns s₁ s₂ later) : Turns s s₂ (events ++ later)

namespace Turns

variable {s s₁ s₂ : Session} {events later : List Event}

theorem single (h : Turn s s₁ events) : Turns s s₁ events := by
  have hone := Turns.cons h (.refl s₁)
  rwa [List.append_nil] at hone

theorem trans (h : Turns s s₁ events) (h' : Turns s₁ s₂ later) : Turns s s₂ (events ++ later) := by
  induction h with
  | refl s => exact h'
  | cons hturn _ ih =>
    rw [List.append_assoc]
    exact .cons hturn (ih h')

/-- An event of several turns is one of one turn, with turns before and after it. -/
theorem exists_turn {e : Event} (h : Turns s s₂ events) (he : e ∈ events) :
    ∃ m m' before told after, Turns s m before ∧ Turn m m' told ∧ e ∈ told ∧ Turns m' s₂ after ∧
      events = before ++ told ++ after := by
  induction h with
  | refl s => cases he
  | @cons s s₁ s₂ told later hturn hrest ih =>
    rcases List.mem_append.mp he with hnow | hlater
    · exact ⟨s, s₁, [], told, later, .refl s, hturn, hnow, hrest, rfl⟩
    · obtain ⟨m, m', before, told', after, hbefore, hm, hin, hafter, rfl⟩ := ih hlater
      refine ⟨m, m', told ++ before, told', after, .cons hturn hbefore, hm, hin, hafter, ?_⟩
      simp only [List.append_assoc]

end Turns

theorem conclude_clock (s : Session) (w : Wait) (cancelled : Bool) :
    (s.conclude w cancelled).1.clock = s.clock := by
  unfold conclude
  split <;> rfl

theorem Turn.clock_cases {s s₁ : Session} {events : List Event} (h : Turn s s₁ events) :
    s₁.clock = s.clock ∨
      ((∀ (i : Nat) (w : Wait), s.waits[i]? = some w → w.phase = .pending →
          s.isCancelled w = false) ∧
        s.NoneDue ∧ ∀ instant ∈ s.ends, s.now < instant → s₁.clock ≤ millisOf instant) := by
  cases h with
  | tick _ hrest hlingers hstops => exact Or.inr ⟨hrest, hlingers, hstops⟩
  | evaluate _ _ _ => exact Or.inl (conclude_clock s _ _)
  | _ => exact Or.inl rfl

/-! ## Settling -/

variable (s : Session)

theorem turns_expireIfDue (id : Nat) : Turns s (s.expireIfDue id).1 (s.expireIfDue id).2 := by
  unfold expireIfDue
  cases hw : s.waits[id]? with
  | none => exact .refl s
  | some w =>
    cases hend : s.lingerEnd? w with
    | none => simp only [hend]; exact .refl s
    | some instant =>
      simp only [hend]
      split
      case isTrue hdue => exact .single (.expire hw hend hdue)
      case isFalse => exact .refl s

theorem turns_evaluate (id : Nat) : Turns s (s.evaluate id).1 (s.evaluate id).2 := by
  unfold evaluate
  cases hw : s.waits[id]? with
  | none => exact .refl s
  | some w =>
    dsimp only
    split
    case isTrue hpending =>
      exact .single (.evaluate hw (Wait.isPending_iff.mp hpending) (Or.inl rfl))
    case isFalse => exact .refl s

theorem turns_forEach {act : Session → Nat → Session × List Event}
    (hact : ∀ (s : Session) id, Turns s (act s id).1 (act s id).2) (ids : List Nat) :
    Turns s (forEach act ids s).1 (forEach act ids s).2 := by
  induction ids generalizing s with
  | nil => exact .refl s
  | cons id rest ih => exact (hact s id).trans (ih (act s id).1)

/-- What each act leaves as it was is left as it was by all of them. -/
theorem forEach_eq {α : Type} (f : Session → α) {act : Session → Nat → Session × List Event}
    (hact : ∀ (s : Session) id, f (act s id).1 = f s) (ids : List Nat) :
    f (forEach act ids s).1 = f s := by
  induction ids generalizing s with
  | nil => rfl
  | cons id rest ih => exact (ih (act s id).1).trans (hact s id)

/-- What does nothing can be left out at the beginning. -/
theorem forEach_append_of_self {act : Session → Nat → Session × List Event} {s : Session}
    {ids : List Nat} (hact : ∀ id ∈ ids, act s id = (s, [])) (later : List Nat) :
    forEach act (ids ++ later) s = forEach act later s := by
  induction ids with
  | nil => rfl
  | cons id rest ih =>
    obtain ⟨hfirst, hrest⟩ := List.forall_mem_cons.mp hact
    simp only [List.cons_append, forEach, hfirst, ih hrest, List.nil_append]

theorem turns_expireDue : Turns s s.expireDue.1 s.expireDue.2 :=
  turns_forEach s turns_expireIfDue _

theorem turns_evaluateAll (ids : List Nat) :
    Turns s (s.evaluateAll ids).1 (s.evaluateAll ids).2 :=
  turns_forEach s turns_evaluate ids

theorem turns_settleRounds (fuel : Nat) :
    Turns s (settleRounds fuel s).1 (settleRounds fuel s).2 := by
  induction fuel generalizing s with
  | zero => exact .refl s
  | succ fuel ih =>
    have hround :=
      (turns_expireDue s).trans (turns_evaluateAll s.expireDue.1 s.expireDue.1.pendingIds)
    simp only [settleRounds]
    split
    case isTrue hdone =>
      -- The last round's evaluations report nothing, and the session leaves their events out.
      rwa [List.isEmpty_iff.mp hdone, List.append_nil] at hround
    case isFalse => exact hround.trans (ih _)

theorem turns_settle : Turns s s.settle.1 s.settle.2 := turns_settleRounds s _

end Admission.Session
