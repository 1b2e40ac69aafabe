import Admission.Proofs.Accounting

/-!
# The simulation is one of the races

At each clock the simulation does all that is to be done, in an order of its own: the late flows
call one after another, the session settles, those whose hold time is over release their slots, and
the status is taken. Each of these is made of things that can happen in a race, and after the last
of them nothing is left to happen:

> what the simulation does at one clock is a tick.

So the simulation is a race. As a race comes to its end before the bound, the simulation never ends
because it has gone on for too long.
-/

set_option autoImplicit false

namespace Admission.Simulation

open Session

variable {settings : Settings} {o : Options} {p p' : Progress}

/-! ## What is done one after another -/

theorem newHolds_append (o : Options) (events later : List Event) :
    Progress.newHolds o (events ++ later) =
      Progress.newHolds o events ++ Progress.newHolds o later :=
  List.filterMap_append

theorem record_nil (o : Options) (p : Progress) : p.record o (p.session, []) = p := by
  simp [Progress.record, Progress.newHolds]

theorem record_record (o : Options) (p : Progress) (first second : Session × List Event) :
    (p.record o first).record o second = p.record o (second.1, first.2 ++ second.2) := by
  simp [Progress.record, Progress.newHolds]

/-- Turns at one clock are things that happen. -/
theorem happens_turns {s s' : Session} {events : List Event} (h : Turns s s' events)
    (hs : s.Orderly)
    (hclock : s'.clock = s.clock) (hp : p.session = s) :
    Relation.ReflTransGen (Happens o) p (p.record o (s', events)) := by
  induction h generalizing p with
  | refl s =>
    subst hp
    rw [record_nil]
  | @cons s s₁ s₂ events later hturn hrest ih =>
    subst hp
    have hs₁ := hturn.replays.orderly hs
    have hbefore := (hturn.follows hs).clock_le
    have hafter := (hrest.follows hs₁).clock_le
    have hfirst : Happens o p (p.record o (s₁, events)) := .turn hturn (by omega)
    have hlater := ih (p := p.record o (s₁, events)) hs₁ (by omega) rfl
    rw [record_record] at hlater
    exact .head hfirst hlater

theorem happens_settle (hs : p.session.Orderly) :
    Relation.ReflTransGen (Happens o) p (p.record o p.session.settle) :=
  happens_turns (turns_settle p.session) hs (clock_settle p.session) rfl

/-- The next flow calls, and it is evaluated at once. -/
theorem happens_call {flow : Nat} {rest : List Nat} (hs : p.session.Orderly)
    (hlate : p.late = flow :: rest) (hfits : DeadlineFits o p.session.clock (deadlineOf o flow)) :
    Relation.ReflTransGen (Happens o) p (Progress.call o { p with late := rest } flow) := by
  have hcall : Happens o p { p with
      session := p.session.register (p.callOf o flow (deadlineOf o flow)),
      late := p.late.erase flow } := .call (hlate ▸ List.mem_cons_self) hfits
  have hclock : (p.session.start (p.callOf o flow (deadlineOf o flow))).1.clock = p.session.clock :=
    conclude_clock _ _ _
  have hevaluated := happens_turns (o := o) (turns_start p.session rfl) (hcall.orderly hs) hclock
    (p := { p with session := _, late := p.late.erase flow }) rfl
  rw [hlate, List.erase_cons_head] at hcall hevaluated
  exact .head hcall hevaluated

/-- Flows call one after another. -/
theorem happens_calls {flows rest : List Nat} (hs : p.session.Orderly)
    (hlate : p.late = flows ++ rest)
    (hfits : ∀ flow ∈ flows, DeadlineFits o p.session.clock (deadlineOf o flow)) :
    Relation.ReflTransGen (Happens o) p
      (flows.foldl (Progress.call o) { p with late := rest }) := by
  induction flows generalizing p with
  | nil =>
    rw [List.nil_append] at hlate
    subst hlate
    exact .refl
  | cons flow flows ih =>
    have hfirst := happens_call hs hlate (hfits flow List.mem_cons_self)
    refine hfirst.trans (ih (orderly_of_happens hfirst hs) rfl fun other hother => ?_)
    rw [clock_of_happens hfirst]
    exact hfits other (List.mem_cons_of_mem _ hother)

/-- Reports of deadlines that pass come one after another. -/
theorem happens_reports {events : List Event} (h : ∀ e ∈ events, e.isScheduling = true) :
    Relation.ReflTransGen (Happens o) p { p with events := p.events ++ events } := by
  induction events generalizing p with
  | nil =>
    rw [List.append_nil]
  | cons e events ih =>
    have hfirst : Happens o p { p with events := p.events ++ [e] } :=
      .report p (h e List.mem_cons_self)
    have hlater := ih (p := { p with events := p.events ++ [e] }) fun e' he' =>
      h e' (List.mem_cons_of_mem _ he')
    rw [List.append_assoc] at hlater
    exact .head hfirst hlater

theorem newHolds_releaseFlow (o : Options) (s : Session) (i : Nat) :
    Progress.newHolds o (Progress.releaseFlow s i).2 = [] :=
  newHolds_of_settles_nobody (request_releaseFlow s i).settles_nobody

/-- Those whose hold time is over release their slots one after another. -/
theorem happens_releases {due : List (Nat × Nat)} (hnodup : due.Nodup)
    (hdue : ∀ hold ∈ due, hold ∈ p.holds ∧ hold.2 ≤ p.session.clock) :
    Relation.ReflTransGen (Happens o) p
      (({ p with holds := p.holds.diff due } : Progress).record o
        (forEach Progress.releaseFlow (due.map Prod.fst) p.session)) := by
  induction due generalizing p with
  | nil =>
    rw [List.diff_nil]
    show Relation.ReflTransGen (Happens o) p (p.record o (p.session, []))
    rw [record_nil]
  | cons hold due ih =>
    obtain ⟨hhold, hpassed⟩ := hdue hold List.mem_cons_self
    have hfirst : Happens o p (({ p with holds := p.holds.erase hold } : Progress).record o
        (Progress.releaseFlow p.session hold.1)) := .release hhold hpassed
    rw [Progress.record, newHolds_releaseFlow, List.append_nil] at hfirst
    rw [List.nodup_cons] at hnodup
    have hlater := ih (p := { p with
      session := (Progress.releaseFlow p.session hold.1).1, holds := p.holds.erase hold,
      events := p.events ++ (Progress.releaseFlow p.session hold.1).2 }) hnodup.2 ?_
    · simp only [Progress.record, List.map_cons, forEach, List.diff_cons, newHolds_append,
        newHolds_releaseFlow, List.nil_append]
      rw [Progress.record, List.append_assoc] at hlater
      exact .head hfirst hlater
    · intro other hother
      obtain ⟨hin, hover⟩ := hdue other (List.mem_cons_of_mem _ hother)
      have hne : other ≠ hold := fun heq => hnodup.1 (heq ▸ hother)
      rw [(request_releaseFlow p.session hold.1).clock_eq]
      exact ⟨(List.mem_erase_of_ne hne).mpr hin, hover⟩

/-! ## The parts of what is done at a clock -/

namespace Progress

/-- What is done at a clock before slots are released. -/
def settled (o : Options) (p : Progress) : Progress :=
  let p := p.callLate o
  let p := { p with events := p.events ++ p.deadlineEvents o }
  p.record o p.session.settle

/-- The status is taken if it is time. -/
def look (o : Options) (p : Progress) : Progress :=
  if p.session.clock = halfTime o then { p with running := some p.session.status } else p

theorem tick_eq (o : Options) (p : Progress) : p.tick o = ((p.settled o).releaseDue o).look o := rfl

end Progress

theorem happens_callLate (o : Options) (hs : p.session.Orderly) :
    Relation.ReflTransGen (Happens o) p (p.callLate o) := by
  unfold Progress.callLate
  split
  case isTrue => exact .refl
  case isFalse hlater =>
    refine happens_calls hs (List.append_nil _).symm fun flow _ => ?_
    unfold deadlineOf
    split
    · exact Or.inr ⟨hlater, rfl⟩
    · exact Or.inl rfl

theorem calls_eq (o : Options) (flows : List Nat) (p : Progress) :
    (flows.foldl (Progress.call o) p).late = p.late ∧
      (flows.foldl (Progress.call o) p).running = p.running := by
  induction flows generalizing p with
  | nil => exact ⟨rfl, rfl⟩
  | cons flow flows ih => exact ih (p.call o flow)

theorem late_callLate (o : Options) (p : Progress) :
    p.session.clock = 0 ∨ (p.callLate o).late = [] := by
  unfold Progress.callLate
  split
  case isTrue hzero => exact Or.inl hzero
  case isFalse => exact Or.inr (calls_eq o p.late _).1

theorem running_callLate (o : Options) (p : Progress) : (p.callLate o).running = p.running := by
  unfold Progress.callLate
  split
  case isTrue => rfl
  case isFalse => exact (calls_eq o p.late _).2

theorem isScheduling_deadlineEvents (o : Options) (p : Progress) :
    ∀ e ∈ p.deadlineEvents o, e.isScheduling = true := by
  intro e he
  obtain ⟨w, -, hreport⟩ := List.mem_filterMap.mp he
  split at hreport
  · obtain ⟨D, -, rfl⟩ := Option.map_eq_some_iff.mp hreport
    rfl
  · cases hreport

theorem happens_settled (o : Options) (hs : p.session.Orderly) :
    Relation.ReflTransGen (Happens o) p (p.settled o) := by
  have hreports := (happens_callLate o hs).trans
    (happens_reports (isScheduling_deadlineEvents o (p.callLate o)))
  exact hreports.trans (happens_settle (orderly_of_happens hreports hs))

/-- What holds of every session that has settled holds then. -/
theorem of_settled {P : Session → Prop} (hP : ∀ s : Session, s.Orderly → P s.settle.1) (o : Options)
    (hs : p.session.Orderly) : P (p.settled o).session := by
  have hcalled := orderly_of_happens (happens_callLate o hs) hs
  exact hP _ hcalled

/-- A linger that had ended has taken its ticket away when the session has settled. -/
theorem gone_settled (o : Options) (hs : p.session.Orderly) {i : Nat} (hdue : p.session.Due i) :
    (p.settled o).session.Gone i := by
  obtain ⟨w, instant, hw, hend, hpassed⟩ := hdue
  obtain ⟨-, announced, hrelease⟩ := lingerEnd?_eq_some_iff.mp hend
  have hsettled := happens_settled o hs
  have hafter := keeps_of_happens (invariant_releaseOf? i _) hsettled hs
    ((releaseOf?_eq hw).trans hrelease)
  obtain ⟨w', hw', hrelease'⟩ := Option.bind_eq_some_iff.mp hafter
  obtain ⟨held, hphase⟩ := Wait.phase_of_release? hrelease'
  refine ⟨w', hw', by simp [hphase], ?_⟩
  have hnone := of_settled (fun _ => noneDue_settle) o hs
  rw [← Bool.not_eq_true]
  intro hholds
  refine hnone i ⟨w', instant, hw', lingerEnd?_eq_some_iff.mpr ⟨hholds, announced, hrelease'⟩, ?_⟩
  rwa [now, clock_of_happens hsettled]

/-- The hold times that are over, and those that are not, are all there are. -/
theorem diff_due_eq (hnodup : p.holds.Nodup) :
    p.holds.diff (p.holds.filter fun h => h.2 ≤ p.session.clock) =
      p.holds.filter fun h => p.session.clock < h.2 := by
  refine hnodup.sdiff_eq_filter.trans (List.filter_congr fun hold hhold => ?_)
  simp [hhold]

theorem happens_releaseDue (hnodup : p.holds.Nodup) :
    Relation.ReflTransGen (Happens o) p (p.releaseDue o) := by
  have hreleases := happens_releases (o := o) (p := p)
    (hnodup.filter fun h => h.2 ≤ p.session.clock) fun hold hhold => by simpa using hhold
  rwa [diff_due_eq hnodup] at hreleases

theorem newHolds_releases (o : Options) (ids : List Nat) (s : Session) :
    Progress.newHolds o (forEach Progress.releaseFlow ids s).2 = [] := by
  induction ids generalizing s with
  | nil => rfl
  | cons i ids ih =>
    simp only [forEach, newHolds_append, newHolds_releaseFlow, ih, List.append_nil]

theorem lt_of_mem_releaseDue {hold : Nat × Nat} (hhold : hold ∈ (p.releaseDue o).holds) :
    p.session.clock < hold.2 := by
  simp only [Progress.releaseDue, Progress.record, newHolds_releases, List.append_nil,
    List.mem_filter, decide_eq_true_eq] at hhold
  exact hhold.2

theorem atRest_releaseFlow {s : Session} (h : s.AtRest) (i : Nat) :
    (Progress.releaseFlow s i).1.AtRest := by
  unfold Progress.releaseFlow
  cases hw : s.held? i with
  | none => exact h
  | some w =>
    dsimp only [finish, finishBy]
    split
    · exact h
    · split
      · exact h
      · exact h.setPhase (by simp) _

theorem atRest_releases {s : Session} (h : s.AtRest) (ids : List Nat) :
    (forEach Progress.releaseFlow ids s).1.AtRest := by
  induction ids generalizing s with
  | nil => exact h
  | cons i ids ih => exact ih (atRest_releaseFlow h i)

theorem happens_look (hnone : p.session.clock = halfTime o → p.running = none) :
    Relation.ReflTransGen (Happens o) p (p.look o) := by
  unfold Progress.look
  split
  case isTrue htime => exact .single (.look htime (hnone htime))
  case isFalse => exact .refl

/-- A look changes nothing but the status that was taken. -/
theorem exists_look (o : Options) (p : Progress) :
    ∃ running, p.look o = { p with running := running } ∧
      (p.session.clock = halfTime o → running.isSome = true) := by
  unfold Progress.look
  split
  case isTrue => exact ⟨_, rfl, fun _ => rfl⟩
  case isFalse hnot => exact ⟨_, rfl, fun htime => absurd htime hnot⟩

/-! ## One clock -/

/-- **What the simulation does at one clock is a tick.** -/
theorem Keeps.tick (h : Keeps settings o p)
    (hlook : p.session.clock = halfTime o → p.running = none) :
    Tick o p (p.tick o) := by
  have hs := h.serves.orderly
  have hsettled := happens_settled o hs
  have hrests : (p.settled o).session.AtRest := of_settled (fun _ => atRest_settle) o hs
  have hgone : ∀ i, p.session.Due i → (p.settled o).session.Gone i := fun i => gone_settled o hs
  have hlate : p.session.clock = 0 ∨ (p.settled o).late = [] := late_callLate o p
  have hrunning : (p.settled o).running = p.running := running_callLate o p
  rw [Progress.tick_eq]
  generalize p.settled o = q at *
  have hclock := clock_of_happens hsettled
  have hreleases := happens_releaseDue (o := o) (.of_map _ (h.allHappens hsettled).nodup)
  have hclock' := clock_of_happens hreleases
  have hlooks : Relation.ReflTransGen (Happens o) (q.releaseDue o) ((q.releaseDue o).look o) := by
    refine happens_look fun htime => hrunning.trans (hlook ?_)
    rw [← hclock, ← hclock', htime]
  have hall := hsettled.trans (hreleases.trans hlooks)
  obtain ⟨running, heq, hseen⟩ := exists_look o (q.releaseDue o)
  rw [heq] at hall ⊢
  refine ⟨hall, ⟨?_, atRest_releases hrests _, ?_, hseen⟩, fun i hdue => ?_⟩
  · exact hlate.imp_left fun hzero => (hclock'.trans hclock).trans hzero
  · intro hold hhold
    exact hclock'.trans_lt (lt_of_mem_releaseDue hhold)
  · have hstays := keeps_of_happens (invariant_gone i) hreleases (orderly_of_happens hsettled hs)
      (hgone i hdue)
    exact hstays

/-- The first clock, which begins with the calls. -/
theorem tick_start (settings : Settings) (o : Options) :
    Tick o (.beginning settings o) ((Progress.start settings o).tick o) := by
  have hkeeps := Keeps.beginning settings o
  have hcalls : Relation.ReflTransGen (Happens o) (.beginning settings o)
      (Progress.start settings o) := by
    refine happens_calls hkeeps.serves.orderly (List.take_append_drop _ _).symm fun flow hflow => ?_
    rw [List.take_range, List.mem_range] at hflow
    have hne : flow ≠ flowsAtStart o := (hflow.trans_le (min_le_left _ _)).ne
    rw [deadlineOf, if_neg hne]
    exact Or.inl rfl
  have hrunning : (Progress.start settings o).running = none := (calls_eq o _ _).2
  have htick := (hkeeps.allHappens hcalls).tick fun _ => hrunning
  refine ⟨hcalls.trans htick.happens, htick.quiet, fun i hdue => ?_⟩
  obtain ⟨w, instant, hw, -⟩ := hdue
  simp [Progress.beginning, Session.new] at hw

/-- Each later clock. -/
theorem Race.tick {n c : Nat} (h : Race settings o n p) (hc : p.nextClock? o = some c) :
    Tick o (p.atClock c) ((p.atClock c).tick o) := by
  refine (h.keeps.atClock h.quiet hc).tick fun htime => ?_
  -- The status is taken at one clock only, and that is this one.
  rw [← Option.not_isSome_iff_eq_none]
  intro hrunning
  have hlt := (nextClock?_eq_some_iff.mp hc).1.lt
  exact absurd (h.keeps.running hrunning) (not_le.mpr (htime ▸ hlt))

/-! ## The run -/

theorem proceed_of_reports (fuel : Nat) {r : Report} (h : (p.tick o).Reports r) :
    p.proceed o (fuel + 1) = .ok r := by
  obtain ⟨hfinished, running, hrunning, rfl⟩ := h
  simp only [Progress.proceed, hfinished, hrunning]

theorem proceed_of_not_reports (fuel : Nat) (h : ∀ r, ¬ (p.tick o).Reports r) :
    p.proceed o (fuel + 1) =
      match (p.tick o).nextClock? o with
      | none => .error (p.tick o)
      | some clock => ((p.tick o).atClock clock).proceed o fuel := by
  simp only [Progress.proceed]
  split
  case h_1 running hfinished hrunning => exact absurd ⟨hfinished, running, hrunning, rfl⟩ (h _)
  case h_2 => rfl

/-- **The simulation is a race that is over, or one that stands still.** -/
theorem race_proceed {fuel n : Nat} (hfuel : n + fuel = stopBound o)
    (h : Race settings o (n + 1) (p.tick o)) :
    (∃ m p' r, Race settings o m p' ∧ p'.Reports r ∧ p.proceed o fuel = .ok r) ∨
      ∃ m p', Race settings o m p' ∧ Stuck settings o p' ∧ p.proceed o fuel = .error p' := by
  induction fuel generalizing n p with
  | zero =>
    have hbound := h.le_stopBound
    omega
  | succ fuel ih =>
    by_cases hreports : ∃ r, (p.tick o).Reports r
    · obtain ⟨r, hr⟩ := hreports
      exact Or.inl ⟨_, _, r, h, hr, proceed_of_reports fuel hr⟩
    · have hgoes := not_exists.mp hreports
      rw [proceed_of_not_reports fuel hgoes]
      cases hc : (p.tick o).nextClock? o with
      | none => exact Or.inr ⟨_, _, h, h.stuck hgoes hc, rfl⟩
      | some c => exact ih (by omega) (h.next hgoes hc (h.tick hc))

theorem race_run (settings : Settings) (o : Options) :
    (∃ n p r, Race (effective settings o) o n p ∧ p.Reports r ∧ run settings o = .ok r) ∨
      ∃ n p, Race (effective settings o) o n p ∧ Stuck (effective settings o) o p ∧
        run settings o = .error p :=
  race_proceed (Nat.zero_add _) (.first (tick_start _ o))

theorem Race.goes_on_or_ends {n : Nat} (h : Race settings o n p) :
    (∃ r, p.Reports r) ∨ Stuck settings o p ∨
      ∃ c p', p.nextClock? o = some c ∧ Tick o (p.atClock c) p' := by
  by_cases hreports : ∃ r, p.Reports r
  · exact Or.inl hreports
  · cases hc : p.nextClock? o with
    | none => exact Or.inr (Or.inl (h.stuck (not_exists.mp hreports) hc))
    | some c => exact Or.inr (Or.inr ⟨c, _, rfl, h.tick hc⟩)

/-- **Every flow of a simulation is accounted for**, for all arguments that are accepted and under
all environments that are. In whatever order the flows race, the clock moves on only so often. Where
it stops, the simulation is over and its report counts every flow once, or it stands still for want
of room that never comes, or it can go on. The simulation that is run is one of the races, and it is
run to the end. -/
theorem every_flow_is_accounted_for {arguments : List String} {env : Settings.Environment}
    {configured : Settings} (harguments : Options.parse arguments = .ok o)
    (henv : Settings.ofEnvironment env = .ok configured)
    (hsettings : settings = effective configured o) :
    (∀ n p, Race settings o n p →
      n ≤ stopBound o ∧ (∀ r, p.Reports r → Accounted settings o r) ∧
        ((∃ r, p.Reports r) ∨ Stuck settings o p ∨
          ∃ c p', p.nextClock? o = some c ∧ Tick o (p.atClock c) p')) ∧
      ((∃ r, runArguments arguments env = .ok (o, settings, r) ∧ Accounted settings o r ∧
          ∃ n p, Race settings o n p ∧ p.Reports r) ∨
        (runArguments arguments env = .error .endless ∧
          ∃ n p, Race settings o n p ∧ Stuck settings o p)) := by
  subst hsettings
  refine ⟨fun n p hrace => ⟨?_, fun r hr => hrace.keeps.accounted hr, hrace.goes_on_or_ends⟩, ?_⟩
  · have hbound := hrace.le_stopBound
    omega
  · rcases race_run configured o with ⟨n, p, r, hrace, hr, hrun⟩ | ⟨n, p, hrace, hstuck, hrun⟩
    · refine Or.inl ⟨r, ?_, hrace.keeps.accounted hr, n, p, hrace, hr⟩
      simp only [runArguments, harguments, henv, hrun]
    · refine Or.inr ⟨?_, n, p, hrace, hstuck⟩
      simp only [runArguments, harguments, henv, hrun]

/-- Without a ceiling no simulation stands still. -/
theorem every_flow_is_accounted_for_unlimited :
    ∃ (o : Options) (settings : Settings) (r : Report),
      runArguments ["--flows", "3", "--max-entries", "unlimited"] (fun _ => none) =
        .ok (o, settings, r) ∧ r.admitted = 3 ∧ r.cancelled = 0 := by
  obtain ⟨o, harguments, hflows, hcapacity, hdeadline⟩ : ∃ o,
      Options.parse ["--flows", "3", "--max-entries", "unlimited"] = .ok o ∧ o.flows = 3 ∧
        o.capacity = some .unlimited ∧ o.deadline = none := ⟨_, rfl, rfl, rfl, rfl⟩
  obtain ⟨configured, henv⟩ :
      ∃ configured, Settings.ofEnvironment (fun _ => none) = .ok configured := ⟨_, rfl⟩
  obtain ⟨-, ⟨r, hrun, haccounted, -⟩ | ⟨-, n, p, -, hstuck⟩⟩ :=
    every_flow_is_accounted_for harguments henv rfl
  · have htotal := haccounted.total
    have hcancelled := haccounted.cancelled hdeadline
    exact ⟨o, _, r, hrun, by omega, hcancelled⟩
  · obtain ⟨m, hm, -⟩ := hstuck.full
    rw [effective, hcapacity] at hm
    cases hm

end Admission.Simulation
