import Admission.Proofs.FirstRelease
import Admission.Proofs.Flows

/-!
# Flows that race

A simulation does what happens at one clock in a fixed order. Callers that run side by side do not:
of two equal flows that wait, either may come first, flows call in any order, and a release, a
linger that ends and an evaluation at the same clock happen as they come. `Simulation.Race` leaves
all of this open. Only time itself is kept:

> the clock moves on when nothing is left to happen without it, and to the next clock at which
> something may happen.

Everything that can happen is a request or a turn of the session, so what these keep, a race keeps
(`Simulation.Keeps`).
-/

set_option autoImplicit false

namespace Admission.Simulation

open Session

namespace Progress

/-- The simulation before any flow has called. -/
def beginning (settings : Settings) (o : Options) : Progress :=
  { session := .new settings.capacity settings.linger, late := List.range o.flows, holds := [],
    running := none, events := [] }

/-- The call that a flow makes. -/
def callOf (o : Options) (p : Progress) (flow : Nat) (deadline : Option Span) : Wait :=
  p.session.newWait (flowEntry flow o.distinctCount) (flowReason (flowPriority flow o.priorities))
    (flowPriority flow o.priorities) "flows" deadline

/-- The simulation is over, and this is its report. -/
def Reports (p : Progress) (r : Report) : Prop :=
  p.allFinished = true ∧ ∃ running, p.running = some running ∧ r = p.report running

end Progress

/-- Something that can happen without the clock. -/
inductive Happens (o : Options) : Progress → Progress → Prop
  /-- A flow that has not called yet calls. It is evaluated by a turn, now or later. -/
  | call {p : Progress} {flow : Nat} {deadline : Option Span} (hlate : flow ∈ p.late)
      (hfits : DeadlineFits o p.session.clock deadline) :
      Happens o p { p with
        session := p.session.register (p.callOf o flow deadline), late := p.late.erase flow }
  /-- The session does something by itself. -/
  | turn {p : Progress} {s : Session} {events : List Event} (hturn : Turn p.session s events)
      (hclock : s.clock = p.session.clock) : Happens o p (p.record o (s, events))
  /-- A flow whose hold time is over releases its slot. -/
  | release {p : Progress} {hold : Nat × Nat} (hhold : hold ∈ p.holds)
      (hdue : hold.2 ≤ p.session.clock) :
      Happens o p
        (({ p with holds := p.holds.erase hold } : Progress).record o
          (Progress.releaseFlow p.session hold.1))
  /-- It is reported why somebody will be evaluated. -/
  | report (p : Progress) {e : Event} (he : e.isScheduling = true) :
      Happens o p { p with events := p.events ++ [e] }
  /-- Half-way through the first hold time, the status is taken. -/
  | look {p : Progress} (hclock : p.session.clock = halfTime o) (hnone : p.running = none) :
      Happens o p { p with running := some p.session.status }

/-- Nothing is left to happen without the clock. A linger that has begun at this clock may still be
found to have ended. -/
structure Quiet (o : Options) (p : Progress) : Prop where
  called : p.session.clock = 0 ∨ p.late = []
  rests : p.session.AtRest
  released : ∀ hold ∈ p.holds, p.session.clock < hold.2
  looked : p.session.clock = halfTime o → p.running.isSome = true

/-- All that happens at one clock, in some order. -/
structure Tick (o : Options) (p p' : Progress) : Prop where
  happens : Relation.ReflTransGen (Happens o) p p'
  quiet : Quiet o p'
  /-- The lingers that had ended when it began have taken their tickets away. -/
  expired : ∀ i, p.session.Due i → p'.session.Gone i

/-- A simulation in which the flows race, after the given number of clocks. It goes on until it is
over. -/
inductive Race (settings : Settings) (o : Options) : Nat → Progress → Prop
  | first {p : Progress} (h : Tick o (.beginning settings o) p) : Race settings o 1 p
  | next {n clock : Nat} {p p' : Progress} (hrace : Race settings o n p)
      (hgoes : ∀ r, ¬ p.Reports r) (hclock : p.nextClock? o = some clock)
      (h : Tick o (p.atClock clock) p') : Race settings o (n + 1) p'

/-! ## What happens to the session -/

variable {settings : Settings} {o : Options} {p p' : Progress}

theorem request_releaseFlow (s : Session) (i : Nat) :
    Request s (.finish i) (Progress.releaseFlow s i).1 (Progress.releaseFlow s i).2 := by
  unfold Progress.releaseFlow
  cases hw : s.held? i with
  | none => exact .noHandle rfl hw
  | some w => exact request_finishBy (Or.inl rfl) hw

theorem Happens.session_cases (h : Happens o p p') :
    p'.session = p.session ∨ (∃ what told, Request p.session what p'.session told) ∨
      ∃ events, Turn p.session p'.session events := by
  cases h with
  | call _ _ => exact Or.inr (Or.inl ⟨_, _, .call _ _ _ _ _⟩)
  | turn hturn _ => exact Or.inr (Or.inr ⟨_, hturn⟩)
  | release _ _ => exact Or.inr (Or.inl ⟨_, _, request_releaseFlow _ _⟩)
  | report _ => exact Or.inl rfl
  | look _ _ => exact Or.inl rfl

theorem Happens.clock_eq (h : Happens o p p') : p'.session.clock = p.session.clock := by
  cases h with
  | turn _ hclock => exact hclock
  | release _ _ => exact (request_releaseFlow _ _).clock_eq
  | _ => rfl

theorem Happens.orderly (h : Happens o p p') (hs : p.session.Orderly) : p'.session.Orderly := by
  rcases h.session_cases with hsame | ⟨what, told, hrequest⟩ | ⟨events, hturn⟩
  · rwa [hsame]
  · exact hrequest.replays.orderly hs
  · exact hturn.replays.orderly hs

/-- What requests and turns keep is kept by all that happens. -/
theorem Happens.keeps {P : Session → Prop} (hP : Invariant P) (h : Happens o p p')
    (hs : p.session.Orderly) (hp : P p.session) : P p'.session := by
  rcases h.session_cases with hsame | ⟨what, told, hrequest⟩ | ⟨events, hturn⟩
  · rwa [hsame]
  · exact hP.request hrequest hs hp
  · exact hP.turn hturn hs hp

theorem orderly_of_happens (h : Relation.ReflTransGen (Happens o) p p') (hs : p.session.Orderly) :
    p'.session.Orderly := by
  induction h with
  | refl => exact hs
  | tail _ hlast ih => exact hlast.orderly ih

theorem keeps_of_happens {P : Session → Prop} (hP : Invariant P)
    (h : Relation.ReflTransGen (Happens o) p p') (hs : p.session.Orderly) (hp : P p.session) :
    P p'.session := by
  induction h with
  | refl => exact hp
  | tail hbefore hlast ih => exact hlast.keeps hP (orderly_of_happens hbefore hs) ih

theorem clock_of_happens (h : Relation.ReflTransGen (Happens o) p p') :
    p'.session.clock = p.session.clock := by
  induction h with
  | refl => rfl
  | tail _ hlast ih => exact hlast.clock_eq.trans ih

/-! ## Who keeps a slot -/

/-- The hold time that begins with an outcome: that of a flow that is let in. -/
def hold? (o : Options) (e : Settled) : Option (Nat × Nat) :=
  match e.outcome with
  | .admitted => some (e.id, holdEnd o e.clock)
  | .cancelled => none

theorem newHolds_eq (o : Options) (events : List Event) :
    Progress.newHolds o events = (events.filterMap Event.settled?).filterMap (hold? o) := by
  rw [List.filterMap_filterMap]
  refine List.filterMap_congr fun e _ => ?_
  cases e <;> rfl

theorem newHolds_of_settles_nobody {events : List Event}
    (h : events.filterMap Event.settled? = []) :
    Progress.newHolds o events = [] := by
  rw [newHolds_eq, h]
  rfl

/-- What is known of a simulation in which the flows race. -/
structure Keeps (settings : Settings) (o : Options) (p : Progress) : Prop where
  serves : Serves settings o p.session
  size : p.session.waits.size + p.late.length = o.flows
  nodup : (p.holds.map Prod.fst).Nodup
  /-- Those keep a slot that were let in and have not released it. -/
  holds : ∀ i, i ∈ p.holds.map Prod.fst ↔
    ∃ w, p.session.waits[i]? = some w ∧ w.phase = .admitted true none
  early : p.late ≠ [] → p.session.clock ≤ 1
  running : p.running.isSome = true → halfTime o ≤ p.session.clock
  seen : ∀ status, p.running = some status → ∀ m, settings.capacity = .limited m →
    status.numEntries ≤ m.toNat

namespace Keeps

theorem beginning (settings : Settings) (o : Options) :
    Keeps settings o (.beginning settings o) where
  serves := .new settings o
  size := by simp [Progress.beginning, Session.new]
  nodup := List.nodup_nil
  holds i := by simp [Progress.beginning, Session.new]
  early _ := Nat.zero_le _
  running h := by cases h
  seen status h := by cases h

theorem call (h : Keeps settings o p) {flow : Nat} {deadline : Option Span} (hlate : flow ∈ p.late)
    (hfits : DeadlineFits o p.session.clock deadline) :
    Keeps settings o { p with
      session := p.session.register (p.callOf o flow deadline), late := p.late.erase flow } where
  serves := h.serves.register (h.early (List.ne_nil_of_mem hlate)) hfits
  size := by
    have hsize : (p.session.waits.push (p.callOf o flow deadline)).size +
        (p.late.erase flow).length = o.flows := by
      rw [Array.size_push, ← h.size, ← List.length_erase_add_one hlate]
      omega
    exact hsize
  nodup := h.nodup
  holds i := by
    rw [h.holds i]
    constructor
    · intro ⟨w, hw, hphase⟩
      exact ⟨w, getElem?_of_push rfl hw, hphase⟩
    · intro ⟨w, hw, hphase⟩
      rw [Session.register, Array.getElem?_push] at hw
      split at hw
      · rw [← Option.some.inj hw] at hphase
        cases hphase
      · exact ⟨w, hw, hphase⟩
  early _ := h.early (List.ne_nil_of_mem hlate)
  running := h.running
  seen := h.seen

/-- A flow that was let in keeps a slot from then on, and one that was cancelled does not. -/
theorem holds_of_settled (h : Keeps settings o p) {i clock : Nat} {w : Wait} {outcome : Outcome}
    {s : Session} {new : List (Nat × Nat)} (hw : p.session.waits[i]? = some w)
    (hpending : w.phase = .pending) (hwaits : s.waits = (p.session.setPhase i outcome.phase).waits)
    (hnew : new = [⟨i, outcome, clock⟩].filterMap (hold? o)) :
    ((p.holds ++ new).map Prod.fst).Nodup ∧
      ∀ j, j ∈ (p.holds ++ new).map Prod.fst ↔
        ∃ v, s.waits[j]? = some v ∧ v.phase = .admitted true none := by
  have hnot : i ∉ p.holds.map Prod.fst := by
    intro hi
    obtain ⟨v, hv, hphase⟩ := (h.holds i).mp hi
    obtain rfl := Option.some.inj (hw.symm.trans hv)
    rw [hpending] at hphase
    cases hphase
  have hothers : ∀ j, j ≠ i → (j ∈ p.holds.map Prod.fst ↔
      ∃ v, s.waits[j]? = some v ∧ v.phase = .admitted true none) := by
    intro j hj
    rw [hwaits, getElem?_setPhase, if_neg (Ne.symm hj)]
    exact h.holds j
  have hself := getElem?_setPhase_self hwaits hw
  cases outcome with
  | admitted =>
    obtain rfl : new = [(i, holdEnd o clock)] := hnew
    simp only [List.map_append, List.map_cons, List.map_nil]
    refine ⟨List.nodup_append.mpr ⟨h.nodup, List.nodup_singleton i, ?_⟩, fun j => ?_⟩
    · intro j hj k hk heq
      exact hnot (List.mem_singleton.mp hk ▸ heq ▸ hj)
    · rw [List.mem_append, List.mem_singleton]
      by_cases hj : j = i
      · subst hj
        simp [hself, Outcome.phase]
      · rw [← hothers j hj]
        exact or_iff_left hj
  | cancelled =>
    obtain rfl : new = [] := hnew
    rw [List.append_nil]
    refine ⟨h.nodup, fun j => ?_⟩
    by_cases hj : j = i
    · subst hj
      simp only [hnot, hself, Outcome.phase, Option.some.injEq, exists_eq_left', false_iff]
      exact fun heq => by cases heq
    · exact hothers j hj

theorem turn (h : Keeps settings o p) {s : Session} {events : List Event}
    (hturn : Turn p.session s events) (hclock : s.clock = p.session.clock) :
    Keeps settings o (p.record o (s, events)) := by
  have hholds : ((p.holds ++ Progress.newHolds o events).map Prod.fst).Nodup ∧
      ∀ i, i ∈ (p.holds ++ Progress.newHolds o events).map Prod.fst ↔
        ∃ w, s.waits[i]? = some w ∧ w.phase = .admitted true none := by
    rcases hturn.waits_cases h.serves.orderly with
      ⟨hwaits, hnobody⟩ | ⟨i, w, outcome, hw, hpending, hwaits, hone⟩
    · rw [newHolds_of_settles_nobody hnobody, List.append_nil, hwaits]
      exact ⟨h.nodup, h.holds⟩
    · have hnew := newHolds_eq o events
      rw [hone] at hnew
      exact h.holds_of_settled hw hpending hwaits hnew
  refine ⟨h.serves.turn hturn hclock, ?_, hholds.1, hholds.2, ?_, ?_, h.seen⟩
  · rw [← h.size]
    exact congrArg (· + p.late.length) (hturn.follows h.serves.orderly).size
  · intro hlate
    exact hclock.le.trans (h.early hlate)
  · intro hrunning
    exact (h.running hrunning).trans hclock.ge

/-- The flow that keeps a slot, as the session knows it. -/
theorem exists_wait (h : Keeps settings o p) {hold : Nat × Nat} (hhold : hold ∈ p.holds) :
    ∃ w, p.session.waits[hold.1]? = some w ∧ w.phase = .admitted true none :=
  (h.holds hold.1).mp (List.mem_map_of_mem hhold)

/-- Those who keep a slot when one of them has released it. -/
theorem mem_erase_iff (h : Keeps settings o p) {hold : Nat × Nat}
    (hhold : hold ∈ p.holds) (i : Nat) :
    i ∈ (p.holds.erase hold).map Prod.fst ↔ i ∈ p.holds.map Prod.fst ∧ i ≠ hold.1 := by
  have hnodup : p.holds.Nodup := .of_map _ h.nodup
  simp only [List.mem_map, hnodup.mem_erase_iff]
  constructor
  · intro ⟨other, ⟨hne, hother⟩, hi⟩
    refine ⟨⟨other, hother, hi⟩, fun heq => hne ?_⟩
    exact List.inj_on_of_nodup_map h.nodup hother hhold (hi.trans heq)
  · intro ⟨⟨other, hother, hi⟩, hne⟩
    exact ⟨other, ⟨fun heq => hne (heq ▸ hi.symm), hother⟩, hi⟩

theorem release (h : Keeps settings o p) {hold : Nat × Nat} (hhold : hold ∈ p.holds) :
    Keeps settings o (({ p with holds := p.holds.erase hold } : Progress).record o
      (Progress.releaseFlow p.session hold.1)) := by
  obtain ⟨w, hw, hphase⟩ := h.exists_wait hhold
  have hnone : Progress.newHolds o (Progress.releaseFlow p.session hold.1).2 = [] :=
    newHolds_of_settles_nobody (request_releaseFlow p.session hold.1).settles_nobody
  have hserves := h.serves.release hw hphase
  rw [Progress.record, hnone, List.append_nil, h.serves.releaseFlow_eq hw hphase]
  refine ⟨hserves, ?_, ?_, fun i => ?_, h.early, h.running, h.seen⟩
  · rw [← h.size]
    exact congrArg (· + p.late.length) Array.size_modify
  · exact h.nodup.sublist (List.erase_sublist.map _)
  · rw [h.mem_erase_iff hhold, h.holds i, getElem?_setPhase]
    by_cases hi : i = hold.1
    · subst hi
      simp [hw]
    · simp [hi, Ne.symm hi]

theorem happens (h : Keeps settings o p) (hnext : Happens o p p') : Keeps settings o p' := by
  cases hnext with
  | call hlate hfits => exact h.call hlate hfits
  | turn hturn hclock => exact h.turn hturn hclock
  | release hhold _ => exact h.release hhold
  | report _ => exact ⟨h.serves, h.size, h.nodup, h.holds, h.early, h.running, h.seen⟩
  | look hclock _ =>
    refine ⟨h.serves, h.size, h.nodup, h.holds, h.early, fun _ => hclock.ge, ?_⟩
    intro status hstatus
    rw [← Option.some.inj hstatus]
    exact h.serves.within

theorem allHappens (h : Keeps settings o p) (hnext : Relation.ReflTransGen (Happens o) p p') :
    Keeps settings o p' := by
  induction hnext with
  | refl => exact h
  | tail _ hlast ih => exact ih.happens hlast

end Keeps

/-! ## When the clock stops next -/

/-- Something may happen at the clock, which lies ahead. -/
inductive Upcoming (o : Options) (p : Progress) : Nat → Prop
  | late (h : p.late ≠ []) : Upcoming o p (p.session.clock + 1)
  | half (h : p.session.clock < halfTime o) : Upcoming o p (halfTime o)
  | deadline {clock : Nat} (h : clock ∈ p.deadlineClocks) (hahead : p.session.clock < clock) :
      Upcoming o p clock
  | hold {hold : Nat × Nat} (h : hold ∈ p.holds) : Upcoming o p (max (p.session.clock + 1) hold.2)
  | timer {instant : Nat} (h : instant ∈ p.session.timers) :
      Upcoming o p (max (p.session.clock + 1) (millisOf instant))

theorem mem_clocks_iff (o : Options) (p : Progress) (c : Nat) :
    c ∈ (if p.late.isEmpty then [] else [p.session.clock + 1]) ++
        (halfTime o :: p.deadlineClocks).filter (fun c => p.session.clock < c) ++
        (p.holds.map fun h => max (p.session.clock + 1) h.2) ++
        (p.session.timers.map fun instant => max (p.session.clock + 1) (millisOf instant)) ↔
      Upcoming o p c := by
  simp only [List.mem_append, List.mem_filter, List.mem_cons, List.mem_map, decide_eq_true_eq]
  constructor
  · intro h
    rcases h with ((hlate | ⟨rfl | hdeadline, hahead⟩) | ⟨hold, hhold, rfl⟩) |
      ⟨instant, htimer, rfl⟩
    · cases hnil : p.late with
      | nil => simp [hnil] at hlate
      | cons flow rest =>
        have hc : c = p.session.clock + 1 := by simpa [hnil] using hlate
        exact hc ▸ .late (by simp [hnil])
    · exact .half hahead
    · exact .deadline hdeadline hahead
    · exact .hold hhold
    · exact .timer htimer
  · intro h
    cases h with
    | late h => simp [List.isEmpty_iff, h]
    | half h => exact Or.inl (Or.inl (Or.inr ⟨Or.inl rfl, h⟩))
    | deadline h hahead => exact Or.inl (Or.inl (Or.inr ⟨Or.inr h, hahead⟩))
    | hold h => exact Or.inl (Or.inr ⟨_, h, rfl⟩)
    | timer h => exact Or.inr ⟨_, h, rfl⟩

theorem nextClock?_eq_some_iff {c : Nat} :
    p.nextClock? o = some c ↔ Upcoming o p c ∧ ∀ c', Upcoming o p c' → c ≤ c' := by
  rw [Progress.nextClock?, List.min?_eq_some_iff]
  simp only [mem_clocks_iff]

theorem nextClock?_eq_none_iff : p.nextClock? o = none ↔ ∀ c, ¬ Upcoming o p c := by
  rw [Progress.nextClock?, List.min?_eq_none_iff, List.eq_nil_iff_forall_not_mem]
  simp only [mem_clocks_iff]

theorem Upcoming.lt {c : Nat} (h : Upcoming o p c) : p.session.clock < c := by
  cases h with
  | late _ => exact Nat.lt_succ_self _
  | half h => exact h
  | deadline _ hahead => exact hahead
  | hold _ => exact (Nat.lt_succ_self _).trans_le (le_max_left _ _)
  | timer _ => exact (Nat.lt_succ_self _).trans_le (le_max_left _ _)

/-! ## From clock to clock -/

theorem Keeps.atClock {c : Nat} (h : Keeps settings o p) (hquiet : Quiet o p)
    (hc : p.nextClock? o = some c) : Keeps settings o (p.atClock c) := by
  obtain ⟨hupcoming, hleast⟩ := nextClock?_eq_some_iff.mp hc
  have hlt := hupcoming.lt
  refine ⟨h.serves.atClock hlt.le, h.size, h.nodup, h.holds, fun hlate => ?_, fun hrunning => ?_,
    h.seen⟩
  · -- Flows are late at clock zero only, and then the clock goes on by one millisecond.
    have hzero := hquiet.called.resolve_right hlate
    have hone := hleast _ (.late hlate)
    rw [hzero] at hone
    exact hone
  · exact (h.running hrunning).trans hlt.le

theorem Happens.running_isSome (h : Happens o p p') (hrunning : p.running.isSome = true) :
    p'.running.isSome = true := by
  cases h with
  | look _ _ => rfl
  | _ => exact hrunning

theorem running_isSome_of_happens (h : Relation.ReflTransGen (Happens o) p p')
    (hrunning : p.running.isSome = true) : p'.running.isSome = true := by
  induction h with
  | refl => exact hrunning
  | tail _ hlast ih => exact hlast.running_isSome ih

namespace Race

variable {n : Nat}

theorem quiet (h : Race settings o n p) : Quiet o p := by
  cases h with
  | first h => exact h.quiet
  | next _ _ _ h => exact h.quiet

theorem keeps (h : Race settings o n p) : Keeps settings o p := by
  induction h with
  | first h => exact (Keeps.beginning settings o).allHappens h.happens
  | next hrace _ hclock h ih => exact (ih.atClock hrace.quiet hclock).allHappens h.happens

/-- The status is taken as soon as half of the hold time has passed: the clock does not go past
it. -/
theorem running (h : Race settings o n p) (hhalf : halfTime o ≤ p.session.clock) :
    p.running.isSome = true := by
  induction h with
  | first h =>
    have hzero : _ = 0 := clock_of_happens h.happens
    exact h.quiet.looked (by omega)
  | @next n c p p' hrace _ hc h ih =>
    obtain ⟨-, hleast⟩ := nextClock?_eq_some_iff.mp hc
    have hclock : p'.session.clock = c := clock_of_happens h.happens
    rcases lt_or_ge p.session.clock (halfTime o) with hahead | hpast
    · have hbefore := hleast _ (.half hahead)
      exact h.quiet.looked (by omega)
    · exact running_isSome_of_happens h.happens (ih hpast)

end Race

end Admission.Simulation
