import Admission.Proofs.Cancellation
import Admission.Proofs.FirstRelease

/-!
# To watch a session, and to cut its time

A question changes nothing, since a session is at rest after every step and settling has nothing to
do. That a move of the clock may be made in two parts needs more: in between the session settles at
a moment where the whole move would have gone on. The one fact is

> between two stops nothing is due,

because what falls due makes a stop, whatever the target. There is one exception. A timer that was
cut to the longest time that a timer runs makes no stop where it was cut, but has ended there; so a
move that is cut at or after that moment sees it earlier than the whole move does
(`Session.CutShort`).
-/

set_option autoImplicit false

namespace Admission

/-- Does the step only ask? -/
def Step.IsQuestion : Step → Prop
  | .view _ | .capacity | .waitingFor _ | .statusJson | .statusText | .debug => True
  | _ => False

/-- What a move of the clock answers that was made in two parts. -/
def Answer.followedBy (first later : Answer) : Answer :=
  { later with events := first.events ++ later.events }

theorem Answer.settled_followedBy (first later : Answer) :
    (first.followedBy later).settled = first.settled ++ later.settled := List.filterMap_append

/-- Two records of steps and their answers tell the same, but for questions, which report nothing,
and for moves of the clock that the second record makes in parts: what the parts report, one after
the other, is what the whole reports, and the last part's answer is the whole's in everything
else. -/
inductive SameButWatched : List (Step × Answer) → List (Step × Answer) → Prop
  | nil : SameButWatched [] []
  | same {t t' : List (Step × Answer)} (what : Step) (a : Answer) (h : SameButWatched t t') :
      SameButWatched ((what, a) :: t) ((what, a) :: t')
  | asked {t t' : List (Step × Answer)} {q : Step} {a : Answer} (hq : q.IsQuestion)
      (ha : a.events = []) (h : SameButWatched t t') : SameButWatched t ((q, a) :: t')
  | unasked {t t' : List (Step × Answer)} {q : Step} {a : Answer} (hq : q.IsQuestion)
      (ha : a.events = []) (h : SameButWatched t t') : SameButWatched ((q, a) :: t) t'
  | sliced {t t' : List (Step × Answer)} {a b : Nat} {first later : Answer}
      (h : SameButWatched ((.advance b, later) :: t) t') :
      SameButWatched ((.advance (a + b), first.followedBy later) :: t) ((.advance a, first) :: t')

namespace Session

variable {s : Session}

/-- The end of the timer of a call that runs, counted in full, if it can be named. -/
def fullEnd? (s : Session) (w : Wait) : Option Nat :=
  if w.isPending then w.announcedDeadline? else s.lingerStop? w

/-- A timer runs that has ended where it was cut, though the deadline or the linger, counted in
full, has not ended there. -/
def CutShort (s : Session) : Prop :=
  ∃ (i : Nat) (w : Wait) (ended : Nat), s.waits[i]? = some w ∧ s.timer? w = some ended ∧
    ended ≤ s.now ∧ s.fullEnd? w ≠ some ended

/-- From a session on, the second list of steps does what the first does: it asks other questions,
and it makes moves of the clock in parts, which it cuts at moments when no timer is cut short. -/
inductive Watches : Session → List Step → List Step → Prop
  | nil (s : Session) : Watches s [] []
  | same {s : Session} {steps steps' : List Step} (what : Step)
      (h : Watches (s.step what).1 steps steps') : Watches s (what :: steps) (what :: steps')
  | asked {s : Session} {steps steps' : List Step} {q : Step} (hq : q.IsQuestion)
      (h : Watches s steps steps') : Watches s steps (q :: steps')
  | unasked {s : Session} {steps steps' : List Step} {q : Step} (hq : q.IsQuestion)
      (h : Watches s steps steps') : Watches s (q :: steps) steps'
  | sliced {s : Session} {steps steps' : List Step} {a b : Nat}
      (hcut : ¬ (s.advance a).1.CutShort)
      (h : Watches (s.step (.advance a)).1 (.advance b :: steps) steps') :
      Watches s (.advance (a + b) :: steps) (.advance a :: steps')

/-! ## Between two stops -/

theorem timer?_of_pending {w : Wait} (hpending : w.phase = .pending) :
    s.timer? w = w.deadlineEnd? := if_pos (Wait.isPending_iff.mpr hpending)

theorem timer?_of_lingerEnd? {w : Wait} {ended : Nat} (h : s.lingerEnd? w = some ended) :
    s.timer? w = some ended := by
  obtain ⟨-, announced, hrelease⟩ := lingerEnd?_eq_some_iff.mp h
  obtain ⟨held, hphase⟩ := Wait.phase_of_release? hrelease
  have hpending : ¬ w.isPending = true := by
    rw [Wait.isPending_iff, hphase]
    simp
  rw [timer?, if_neg hpending, h]

theorem mem_ends_of_fullEnd? {i : Nat} {w : Wait} {ended : Nat} (hw : s.waits[i]? = some w)
    (h : s.fullEnd? w = some ended) : ended ∈ s.ends := by
  unfold fullEnd? at h
  split at h
  · exact mem_ends_iff.mpr ⟨i, w, hw, Or.inl h⟩
  · exact mem_ends_iff.mpr ⟨i, w, hw, Or.inr h⟩

/-- A timer that lies ahead has not ended before the next stop, unless it was cut short. -/
theorem now_lt_of_timer? {ms : Nat} (hstops : ∀ instant ∈ s.future, ms < millisOf instant)
    (hcut : ¬ ({ s with clock := ms } : Session).CutShort) {i : Nat} {w : Wait} {ended : Nat}
    (hw : s.waits[i]? = some w) (htimer : s.timer? w = some ended) (hahead : s.now < ended) :
    instantOfMillis ms < ended := by
  by_contra hended
  have hfull : s.fullEnd? w = some ended := by
    by_contra hne
    exact hcut ⟨i, w, ended, hw, htimer, not_lt.mp hended, hne⟩
  have hstop := hstops ended (mem_future_iff.mpr ⟨mem_ends_of_fullEnd? hw hfull, hahead⟩)
  exact absurd (millisOf_le_iff.mpr (not_lt.mp hended)) (not_le.mpr hstop)

/-- **Between two stops nothing is due.** -/
theorem AtRest.before_stop (hrest : s.AtRest) (hnone : s.NoneDue) (hs : s.Orderly) {ms : Nat}
    (hstops : ∀ instant ∈ s.future, ms < millisOf instant)
    (hcut : ¬ ({ s with clock := ms } : Session).CutShort) :
    ({ s with clock := ms } : Session).AtRest ∧ ({ s with clock := ms } : Session).NoneDue := by
  obtain ⟨l, hl⟩ := hs
  constructor
  · intro i w hw hpending
    obtain ⟨hbefore, hrefuses⟩ := hrest.refuses hl hw hpending
    have hafter : ({ s with clock := ms } : Session).isCancelled w = false := by
      rw [← Bool.not_eq_true, isCancelled_iff] at hbefore ⊢
      rintro (htoken | ⟨D, hD, hended⟩)
      · exact hbefore (Or.inl htoken)
      · have htimer : s.timer? w = some (timerEnd (instantOfMillis w.startedAt) D) := by
          rw [timer?_of_pending hpending, Wait.deadlineEnd?, hD, Option.map_some]
        have hahead := not_le.mp fun hle => hbefore (Or.inr ⟨D, hD, hle⟩)
        exact absurd (now_lt_of_timer? hstops hcut hw htimer hahead) (not_lt.mpr hended)
    exact Or.inl (Controller.verdict_eq_blocked_iff.mpr ⟨hafter, hrefuses⟩)
  · rintro i ⟨w, ended, hw, hend, hended⟩
    have hahead := not_le.mp fun hle => hnone i ⟨w, ended, hw, hend, hle⟩
    exact absurd (now_lt_of_timer? hstops hcut hw (timer?_of_lingerEnd? hend) hahead)
      (not_lt.mpr hended)

/-- The next stop is the same from every moment before it. -/
theorem nextStop?_before_stop {ms : Nat} (hle : s.clock ≤ ms)
    (hstops : ∀ instant ∈ s.future, ms < millisOf instant) :
    ({ s with clock := ms } : Session).nextStop? = s.nextStop? := by
  have hsame : s.ends.filter (fun instant => instantOfMillis ms < instant) =
      s.ends.filter fun instant => s.now < instant := by
    refine List.filter_congr fun instant hend => decide_eq_decide.mpr ⟨fun h => ?_, fun h => ?_⟩
    · exact (instantOfMillis_mono hle).trans_lt h
    · by_contra hpassed
      have hstop := hstops instant (mem_future_iff.mpr ⟨hend, h⟩)
      exact absurd (millisOf_le_iff.mpr (not_lt.mp hpassed)) (not_le.mpr hstop)
  exact congrArg (fun l => (l.map millisOf).min?) hsame

/-! ## Moves in two parts -/

/-- With stops enough, it does not matter how many are granted. -/
theorem advanceStops_fuel {fuel fuel' target : Nat} (hs : s.Orderly) (hfuel : s.future.card < fuel)
    (hfuel' : s.future.card < fuel') :
    advanceStops fuel target s = advanceStops fuel' target s := by
  induction fuel generalizing s fuel' with
  | zero => exact absurd hfuel (Nat.not_lt_zero _)
  | succ fuel ih =>
    obtain ⟨fuel', rfl⟩ := Nat.exists_eq_succ_of_ne_zero (Nat.ne_zero_of_lt hfuel')
    have hcard := card_future_settle_le hs
    simp only [advanceStops]
    split
    case h_1 => rfl
    case h_2 stop hstop =>
      have hless := (card_future_stop_lt hstop).trans_le hcard
      rw [ih (((turns_settle s).orderly hs).atClock stop)
        (hless.trans_le (Nat.le_of_lt_succ hfuel)) (hless.trans_le (Nat.le_of_lt_succ hfuel'))]

theorem clock_advanceStops (fuel target : Nat) (s : Session) :
    (advanceStops fuel target s).1.clock = target := by
  induction fuel generalizing s with
  | zero => rfl
  | succ fuel ih =>
    simp only [advanceStops]
    split
    · rfl
    · split
      · exact ih _
      · rfl

theorem advanceStops_of_stop {fuel target stop : Nat} (hnext : s.settle.1.nextStop? = some stop)
    (hreach : stop ≤ target) :
    advanceStops (fuel + 1) target s =
      ((advanceStops fuel target { s.settle.1 with clock := stop }).1,
        s.settle.2 ++ (advanceStops fuel target { s.settle.1 with clock := stop }).2) := by
  simp only [advanceStops, hnext, if_pos hreach]

theorem advanceStops_of_no_stop {fuel target : Nat}
    (hstops : ∀ instant ∈ s.settle.1.future, target < millisOf instant) :
    advanceStops (fuel + 1) target s = ({ s.settle.1 with clock := target }, s.settle.2) := by
  cases hnext : s.settle.1.nextStop? with
  | none => simp only [advanceStops, hnext]
  | some stop =>
    obtain ⟨⟨instant, hinstant, rfl⟩, -⟩ := nextStop?_eq_some_iff.mp hnext
    simp only [advanceStops, hnext, if_neg (not_le.mpr (hstops instant hinstant))]

/-- Either a move makes no stop, or it makes a first one. -/
theorem exists_stop_or (s : Session) (target : Nat) :
    (∀ instant ∈ s.future, target < millisOf instant) ∨
      ∃ stop, s.nextStop? = some stop ∧ stop ≤ target := by
  cases hnext : s.nextStop? with
  | none =>
    left
    intro instant h
    rw [nextStop?_eq_none_iff.mp hnext] at h
    cases h
  | some stop =>
    rcases Nat.lt_or_ge target stop with hbeyond | hreach
    · exact Or.inl fun instant h =>
        hbeyond.trans_le ((nextStop?_eq_some_iff.mp hnext).2 instant h)
    · exact Or.inr ⟨stop, rfl, hreach⟩

/-- A move of the clock begins with settling. -/
theorem advanceStops_settle {fuel target : Nat} (hs : s.Orderly) :
    advanceStops (fuel + 1) target s =
      ((advanceStops (fuel + 1) target s.settle.1).1,
        s.settle.2 ++ (advanceStops (fuel + 1) target s.settle.1).2) := by
  have hquiet := (atRest_settle hs).settle_eq (noneDue_settle hs)
  rcases exists_stop_or s.settle.1 target with hstops | ⟨stop, hnext, hreach⟩
  · have hstops' : ∀ instant ∈ s.settle.1.settle.1.future, target < millisOf instant := by
      rwa [hquiet]
    rw [advanceStops_of_no_stop hstops, advanceStops_of_no_stop hstops', hquiet, List.append_nil]
  · have hnext' : s.settle.1.settle.1.nextStop? = some stop := by rwa [hquiet]
    rw [advanceStops_of_stop hnext hreach, advanceStops_of_stop hnext' hreach, hquiet,
      List.nil_append]

/-- Before the next stop it makes no difference when a move begins. -/
theorem advanceStops_before_stop {fuel fuel' ms target : Nat} (hs : s.Orderly) (hrest : s.AtRest)
    (hnone : s.NoneDue) (hle : s.clock ≤ ms)
    (hstops : ∀ instant ∈ s.future, ms < millisOf instant)
    (hcut : ¬ ({ s with clock := ms } : Session).CutShort) (hfuel : s.future.card < fuel)
    (hfuel' : ({ s with clock := ms } : Session).future.card < fuel') :
    advanceStops fuel target s = advanceStops fuel' target { s with clock := ms } := by
  obtain ⟨fuel, rfl⟩ := Nat.exists_eq_succ_of_ne_zero (Nat.ne_zero_of_lt hfuel)
  obtain ⟨fuel', rfl⟩ := Nat.exists_eq_succ_of_ne_zero (Nat.ne_zero_of_lt hfuel')
  obtain ⟨hrest', hnone'⟩ := hrest.before_stop hnone hs hstops hcut
  have hnext := nextStop?_before_stop hle hstops
  simp only [advanceStops, hrest.settle_eq hnone, hrest'.settle_eq hnone', hnext]
  split
  case h_1 => rfl
  case h_2 stop hstop =>
    have hless := card_future_stop_lt hstop
    have hless' := card_future_stop_lt (hnext.trans hstop)
    rw [advanceStops_fuel (hs.atClock stop) (hless.trans_le (Nat.le_of_lt_succ hfuel))
      (hless'.trans_le (Nat.le_of_lt_succ hfuel'))]

/-- A move that is cut where no timer is cut short: at the cut nothing is due, and the two parts
make the stops that the whole makes. -/
theorem advanceStops_cut {fuel fuel₁ ms target : Nat} (hs : s.Orderly) (hle : s.clock ≤ ms)
    (htarget : ms ≤ target) (hfuel : s.future.card < fuel) (hfuel₁ : s.future.card < fuel₁)
    (hcut : ¬ (advanceStops fuel₁ ms s).1.CutShort) :
    let m := advanceStops fuel₁ ms s
    m.1.AtRest ∧ m.1.NoneDue ∧ ∀ fuel₂, m.1.future.card < fuel₂ →
      advanceStops fuel target s =
        ((advanceStops fuel₂ target m.1).1, m.2 ++ (advanceStops fuel₂ target m.1).2) := by
  -- On the stops of the first part; the whole makes each of them too.
  induction fuel₁ generalizing s fuel with
  | zero => exact absurd hfuel₁ (Nat.not_lt_zero _)
  | succ fuel₁ ih =>
    obtain ⟨fuel, rfl⟩ := Nat.exists_eq_succ_of_ne_zero (Nat.ne_zero_of_lt hfuel)
    have hs₁ := (turns_settle s).orderly hs
    have hrest := atRest_settle hs
    have hnone := noneDue_settle hs
    have hcard := card_future_settle_le hs
    have hclock : s.settle.1.clock ≤ ms := (clock_settle s).trans_le hle
    -- Where the first part makes no more stops, the second goes on as the whole does.
    have hlast : (∀ instant ∈ s.settle.1.future, ms < millisOf instant) →
        ¬ ({ s.settle.1 with clock := ms } : Session).CutShort →
        ({ s.settle.1 with clock := ms } : Session).AtRest ∧
          ({ s.settle.1 with clock := ms } : Session).NoneDue ∧
          ∀ fuel₂, ({ s.settle.1 with clock := ms } : Session).future.card < fuel₂ →
            advanceStops (fuel + 1) target s =
              ((advanceStops fuel₂ target { s.settle.1 with clock := ms }).1,
                s.settle.2 ++ (advanceStops fuel₂ target { s.settle.1 with clock := ms }).2) := by
      intro hstops hnotcut
      obtain ⟨hrest', hnone'⟩ := hrest.before_stop hnone hs₁ hstops hnotcut
      refine ⟨hrest', hnone', fun fuel₂ hfuel₂ => ?_⟩
      rw [advanceStops_settle hs, advanceStops_before_stop hs₁ hrest hnone hclock hstops hnotcut
        (hcard.trans_lt hfuel) hfuel₂]
    rcases exists_stop_or s.settle.1 ms with hstops | ⟨stop, hnext, hreach⟩
    · rw [advanceStops_of_no_stop hstops] at hcut ⊢
      exact hlast hstops hcut
    · have hless := (card_future_stop_lt hnext).trans_le hcard
      rw [advanceStops_of_stop hnext hreach] at hcut ⊢
      rw [advanceStops_of_stop hnext (hreach.trans htarget)]
      obtain ⟨hrest', hnone', hparts⟩ := ih (hs₁.atClock stop) hreach
        (hless.trans_le (Nat.le_of_lt_succ hfuel)) (hless.trans_le (Nat.le_of_lt_succ hfuel₁)) hcut
      refine ⟨hrest', hnone', fun fuel₂ hfuel₂ => ?_⟩
      rw [hparts fuel₂ hfuel₂, List.append_assoc]

theorem card_future_lt (s : Session) : s.future.card < s.ends.length + 1 :=
  Nat.lt_succ_of_le ((List.toFinset_card_le _).trans (List.length_filter_le _ _))

/-- **A move of the clock may be cut** wherever no timer is cut short. At the cut nothing is due. -/
theorem advance_add (hs : s.Orderly) {a : Nat} (b : Nat) (hcut : ¬ (s.advance a).1.CutShort) :
    let m := s.advance a
    m.1.AtRest ∧ m.1.NoneDue ∧
      s.advance (a + b) = ((m.1.advance b).1, m.2 ++ (m.1.advance b).2) := by
  have hclock : (s.advance a).1.clock = s.clock + a := clock_advanceStops _ _ s
  obtain ⟨hrest, hnone, hparts⟩ := advanceStops_cut hs (Nat.le_add_right s.clock a)
    (Nat.add_le_add_left (Nat.le_add_right a b) s.clock) s.card_future_lt s.card_future_lt hcut
  refine ⟨hrest, hnone, ?_⟩
  have hlater : (s.advance a).1.advance b =
      advanceStops ((s.advance a).1.ends.length + 1) (s.clock + (a + b)) (s.advance a).1 := by
    rw [advance, hclock, Nat.add_assoc]
  rw [hlater]
  exact hparts _ (card_future_lt _)

/-! ## Steps and runs -/

theorem step_question {q : Step} (hq : q.IsQuestion) (hrest : s.AtRest) (hnone : s.NoneDue) :
    (s.step q).1 = s ∧ (s.step q).2.events = [] := by
  have hperform : ∃ reply, s.perform q = (s, reply, []) := by
    cases q with
    | view i =>
      simp only [perform, withHandle]
      split <;> exact ⟨_, rfl⟩
    | capacity => exact ⟨_, rfl⟩
    | waitingFor e => exact ⟨_, rfl⟩
    | statusJson => exact ⟨_, rfl⟩
    | statusText => exact ⟨_, rfl⟩
    | debug => exact ⟨_, rfl⟩
    | _ => exact hq.elim
  obtain ⟨reply, hreply⟩ := hperform
  obtain ⟨hsame, -, hevents⟩ := step_of_perform hreply hrest hnone
  exact ⟨hsame, hevents⟩

theorem step_advance_add (hs : s.Orderly) {a : Nat} (b : Nat) (hcut : ¬ (s.advance a).1.CutShort) :
    (s.step (.advance (a + b))).1 = ((s.step (.advance a)).1.step (.advance b)).1 ∧
      (s.step (.advance (a + b))).2 =
        (s.step (.advance a)).2.followedBy ((s.step (.advance a)).1.step (.advance b)).2 := by
  obtain ⟨hrest, hnone, hadd⟩ := advance_add hs b hcut
  have hquiet := hrest.settle_eq hnone
  constructor
  · simp only [step, perform, hadd, hquiet]
  · simp only [step, perform, hadd, hquiet, Answer.followedBy, List.append_nil, List.append_assoc]

/-- The steps of a run with their answers. -/
def record (s : Session) (steps : List Step) : List (Step × Answer) :=
  steps.zip (s.run steps).2

theorem record_cons (s : Session) (what : Step) (steps : List Step) :
    s.record (what :: steps) = (what, (s.step what).2) :: (s.step what).1.record steps := by
  simp only [record, run, List.zip_cons_cons]

theorem run_cons (s : Session) (what : Step) (steps : List Step) :
    (s.run (what :: steps)).1 = ((s.step what).1.run steps).1 := by
  simp only [run]

theorem Watches.after {steps steps' : List Step} (before : List Step)
    (h : (s.run before).1.Watches steps steps') :
    s.Watches (before ++ steps) (before ++ steps') := by
  induction before generalizing s with
  | nil => exact h
  | cons what rest ih =>
    rw [run_cons] at h
    exact .same what (ih h)

theorem Watches.sameButWatched {steps steps' : List Step} (h : s.Watches steps steps')
    (hs : s.Orderly) (hrest : s.AtRest) (hnone : s.NoneDue) :
    (s.run steps').1 = (s.run steps).1 ∧ SameButWatched (s.record steps) (s.record steps') := by
  induction h with
  | nil s => exact ⟨rfl, .nil⟩
  | @same s steps steps' what _ ih =>
    obtain ⟨hfinal, hrecord⟩ :=
      ih ((replays_step s what).orderly hs) (atRest_step hs what) (noneDue_step hs what)
    rw [run_cons, run_cons, record_cons, record_cons]
    exact ⟨hfinal, .same what _ hrecord⟩
  | asked hq _ ih =>
    obtain ⟨hsame, hevents⟩ := step_question hq hrest hnone
    obtain ⟨hfinal, hrecord⟩ := ih hs hrest hnone
    rw [run_cons, record_cons, hsame]
    exact ⟨hfinal, .asked hq hevents hrecord⟩
  | unasked hq _ ih =>
    obtain ⟨hsame, hevents⟩ := step_question hq hrest hnone
    obtain ⟨hfinal, hrecord⟩ := ih hs hrest hnone
    rw [run_cons, record_cons, hsame]
    exact ⟨hfinal, .unasked hq hevents hrecord⟩
  | @sliced s steps steps' a b hcut _ ih =>
    obtain ⟨hfinal, hrecord⟩ := ih ((replays_step s _).orderly hs) (atRest_step hs _)
      (noneDue_step hs _)
    obtain ⟨hstate, hanswer⟩ := step_advance_add hs b hcut
    rw [record_cons _ (.advance b)] at hrecord
    constructor
    · rw [run_cons s (.advance a), hfinal, run_cons s (.advance (a + b)), hstate, run_cons]
    · rw [record_cons s (.advance a), record_cons s (.advance (a + b)), hstate, hanswer]
      exact .sliced hrecord

/-! ## Within thirty years -/

theorem longestTimer_le_lastTimerEnd : longestTimer.nanos ≤ lastTimerEnd := by decide

theorem timerEnd_eq_of_lt {instant : Nat} {D : Span} (h : timerEnd instant D < longestTimer.nanos) :
    timerEnd instant D = instant + D.nanos := by
  have hlast := longestTimer_le_lastTimerEnd
  unfold timerEnd at h ⊢
  omega

theorem endAfter_eq_of_lt {sleep : Sleep} {instant : Nat} {L : Span}
    (h : sleep.endAfter instant L < longestTimer.nanos) :
    sleep.endAfter instant L = instant + L.nanos := by
  cases sleep with
  | timer => exact timerEnd_eq_of_lt h
  | thread => rfl

/-- **In the first thirty years no timer is cut short**, wherever a move of the clock is cut. -/
theorem not_cutShort_advance (capacity : Capacity) (linger : Span) (steps : List Step) {a : Nat}
    (h : instantOfMillis (((new capacity linger).run steps).1.clock + a) < longestTimer.nanos) :
    ¬ (((new capacity linger).run steps).1.advance a).1.CutShort := by
  rintro ⟨i, w, ended, hw, htimer, hended, hne⟩
  have hnow : ended < longestTimer.nanos := by
    refine hended.trans_lt ?_
    rwa [now, advance, clock_advanceStops]
  refine hne ?_
  unfold timer? at htimer
  unfold fullEnd?
  split at htimer
  case isTrue hpending =>
    obtain ⟨D, hD, rfl⟩ := Option.map_eq_some_iff.mp htimer
    rw [if_pos hpending]
    have hfull := timerEnd_eq_of_lt hnow
    refine announcedDeadline?_eq_some_iff.mpr ⟨D, hD, ?_, hfull⟩
    rw [← hfull]
    exact hnow.trans_le (longestTimer_le_lastTimerEnd.trans lastTimerEnd_lt.le)
  case isFalse hpending =>
    obtain ⟨hholds, announced, hrelease⟩ := lingerEnd?_eq_some_iff.mp htimer
    rw [if_neg hpending]
    -- The release was there before the clock moved, so a step of the run has made it.
    have hs := (orderly_new capacity linger).run steps
    have hbefore := ((turns_advance hs a).follows hs).releaseOf?_eq i
    rw [releaseOf?_eq hw, hrelease] at hbefore
    obtain ⟨what, clock, L, -, hat⟩ := (releaseOf?_run_iff steps i _).mp hbefore.symm
    obtain ⟨-, hannounced, rfl⟩ := releaseAt_eq_ends_iff.mp hat.symm
    rw [endAfter_eq_of_lt hnow, ← hannounced]
    exact lingerStop?_eq_some_iff.mpr ⟨hholds, by rw [Wait.announcedEnd?, hrelease]⟩

/-! ## Runs that are watched -/

/-- **To watch does not disturb.** Questions may be put into a run and left out of it anywhere, and
moves of the clock may be made in parts, cut at moments when no timer is cut short: the session at
the end is the same, the answers of all other steps are the same, the questions report nothing, and
what the parts of a move report is together what the whole move reports, in the same order and with
the same clocks. -/
theorem watching_changes_nothing (capacity : Capacity) (linger : Span) {steps steps' : List Step}
    (h : (new capacity linger).Watches steps steps') :
    ((new capacity linger).run steps').1 = ((new capacity linger).run steps).1 ∧
      SameButWatched ((new capacity linger).record steps) ((new capacity linger).record steps') :=
  h.sameButWatched (orderly_new capacity linger) (atRest_new capacity linger) (noneDue_run [])

/-- A linger of two and a half milliseconds, and a move of the clock that is cut before its end and
at the stop that it makes. -/
theorem watching_changes_nothing_two_cuts :
    let a : Entry := ⟨"udp", "l", "a"⟩
    let b : Entry := ⟨"udp", "l", "b"⟩
    let s₀ := new (.limited 1) ⟨2500000⟩
    let calls : List Step := [.wait a "" .standard "root" none, .wait b "" .standard "root" none,
      .finish 0]
    let move : List Step := [.advance (2 + (1 + 2))]
    let parts : List Step :=
      [.capacity, .advance 2, .view 0, .advance 1, .waitingFor b, .advance 2]
    s₀.Watches (calls ++ move) (calls ++ parts) ∧
      (s₀.run (calls ++ parts)).1 = (s₀.run (calls ++ move)).1 ∧
      SameButWatched (s₀.record (calls ++ move)) (s₀.record (calls ++ parts)) ∧
      (s₀.run (calls ++ parts)).2.map Answer.settled =
        [[⟨0, .admitted, 0⟩], [], [], [], [], [], [⟨1, .admitted, 3⟩], [], []] := by
  intro a b s₀ calls move parts
  subst s₀
  have hfirst : ¬ (((new (.limited 1) ⟨2500000⟩).run calls).1.advance 2).1.CutShort := by
    refine not_cutShort_advance (.limited 1) ⟨2500000⟩ calls ?_
    subst calls b a
    decide_cbv
  have hsecond : ¬ ((((new (.limited 1) ⟨2500000⟩).run calls).1.step (.advance 2)).1.advance
      1).1.CutShort := by
    have hcut := not_cutShort_advance (.limited 1) ⟨2500000⟩ (calls ++ [.advance 2]) (a := 1) ?_
    · simpa only [run_concat] using hcut
    · subst calls b a
      decide_cbv
  have hwatches : (new (.limited 1) ⟨2500000⟩).Watches (calls ++ move) (calls ++ parts) := by
    refine .after calls ?_
    generalize ((new (.limited 1) ⟨2500000⟩).run calls).1 = s₁ at hfirst hsecond ⊢
    exact .asked trivial (.sliced hfirst (.asked trivial (.sliced hsecond
      (.asked trivial (.same _ (.nil _))))))
  obtain ⟨hfinal, hrecord⟩ := watching_changes_nothing (.limited 1) ⟨2500000⟩ hwatches
  refine ⟨hwatches, hfinal, hrecord, ?_⟩
  subst parts calls b a
  decide_cbv

/-- A deadline of forty years ends a call where the clock stops after thirty. With one move it stops
after thirty-six years, and with two after thirty-five. -/
theorem sliced_before_deadline :
    let a : Entry := ⟨"udp", "l", "a"⟩
    let b : Entry := ⟨"udp", "l", "b"⟩
    let D : Span := .ofWholeSeconds (40 * 365 * 86400)
    let year := 365 * 86400 * 1000
    let s₀ := new (.limited 1) .zero
    let calls : List Step := [.wait a "" .standard "root" none,
      .wait b "" .standard "root" (some D)]
    let move : List Step := [.advance (35 * year + year)]
    let parts : List Step := [.advance (35 * year), .advance year]
    (s₀.run (calls ++ move)).2.map Answer.settled =
        [[⟨0, .admitted, 0⟩], [], [⟨1, .cancelled, 1135296000000⟩]] ∧
      (s₀.run (calls ++ parts)).2.map Answer.settled =
        [[⟨0, .admitted, 0⟩], [], [⟨1, .cancelled, 1103760000000⟩], []] := by
  intro a b D year s₀ calls move parts
  subst parts move calls s₀ year D b a
  decide_cbv

end Session

end Admission
