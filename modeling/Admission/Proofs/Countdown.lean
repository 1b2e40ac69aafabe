import Admission.Proofs.Race
import Mathlib.Algebra.Group.Action.Defs
import Mathlib.Algebra.Order.BigOperators.Group.Finset

/-!
# A race comes to its end

Whatever order the flows race in, the clock can move on only so often. Each time it does, something
lies behind that lay ahead before: the hold time of a flow, its linger, the call of those who are
late, half of the first hold time, or one of the two clocks at which deadlines end. Nothing that
happens puts any of these back:

> the clocks that lie ahead become fewer with every tick.

So a race of any number of flows has an end, and there are never more ticks than
`Simulation.stopBound`.
-/

set_option autoImplicit false

namespace Admission.Simulation

open Session

variable {settings : Settings} {o : Options} {p p' : Progress} {i : Nat}

/-- The clocks at which something happens on account of all flows. -/
def sharedStops (o : Options) : Finset Nat := insert (halfTime o) (deadlineStops o)

theorem card_sharedStops_le (o : Options) : (sharedStops o).card ≤ 3 := by
  have hdeadlines : (deadlineStops o).card ≤ 2 := by
    unfold deadlineStops
    split
    · exact Nat.zero_le _
    · exact Finset.card_le_two
  exact (Finset.card_insert_le _ _).trans (Nat.succ_le_succ hdeadlines)

/-- The clocks that can still come: two for each flow, one for those who are late, and those for
all. -/
def clocksAhead (o : Options) (p : Progress) : Nat :=
  ∑ i ∈ Finset.range o.flows, remaining p.session i + (if p.late = [] then 0 else 1) +
    ((sharedStops o).filter fun c => p.session.clock < c).card

theorem clocksAhead_lt (o : Options) (p : Progress) : clocksAhead o p < stopBound o := by
  have hflows : ∑ i ∈ Finset.range o.flows, remaining p.session i ≤ 2 * o.flows := by
    refine (Finset.sum_le_card_nsmul _ _ 2 fun i _ => remaining_le p.session i).trans ?_
    rw [Finset.card_range, smul_eq_mul, Nat.mul_comm]
  have hlate : (if p.late = [] then 0 else 1) ≤ 1 := by split <;> omega
  have hstops := (Finset.card_filter_le (sharedStops o) fun c => p.session.clock < c).trans
    (card_sharedStops_le o)
  unfold clocksAhead stopBound
  omega

/-! ## Nothing is put back -/

theorem remaining_happens_le (h : Keeps settings o p) (hnext : Happens o p p') (i : Nat) :
    remaining p'.session i ≤ remaining p.session i := by
  cases hnext with
  | call _ _ => exact remaining_register_le _ _ i
  | turn hturn _ => exact remaining_turn_le hturn h.serves.orderly i
  | release hhold _ =>
    obtain ⟨w, hw, hphase⟩ := h.exists_wait hhold
    rw [Progress.record, h.serves.releaseFlow_eq hw hphase]
    exact remaining_setPhase_le hw hphase _ i
  | report _ => exact le_rfl
  | look _ _ => exact le_rfl

theorem remaining_allHappens_le (h : Keeps settings o p)
    (hnext : Relation.ReflTransGen (Happens o) p p') (i : Nat) :
    remaining p'.session i ≤ remaining p.session i := by
  induction hnext with
  | refl => exact le_rfl
  | tail hbefore hlast ih => exact (remaining_happens_le (h.allHappens hbefore) hlast i).trans ih

/-- Whoever keeps a slot keeps it until the same clock, or releases it. -/
theorem hold_or_released (h : Keeps settings o p) (hnext : Happens o p p') {hold : Nat × Nat}
    (hhold : hold ∈ p.holds ∨ p.session.Released hold.1) :
    hold ∈ p'.holds ∨ p'.session.Released hold.1 := by
  rcases hhold with hhold | hreleased
  · cases hnext with
    | call _ _ => exact Or.inl hhold
    | turn _ _ => exact Or.inl (List.mem_append_left _ hhold)
    | @release other hother _ =>
      by_cases heq : hold = other
      · subst heq
        obtain ⟨w, hw, hphase⟩ := h.exists_wait hhold
        right
        rw [Progress.record, h.serves.releaseFlow_eq hw hphase]
        exact ⟨_, releaseOf?_eq (getElem?_setPhase_self rfl hw)⟩
      · exact Or.inl (List.mem_append_left _ ((List.mem_erase_of_ne heq).mpr hhold))
    | report _ => exact Or.inl hhold
    | look _ _ => exact Or.inl hhold
  · exact Or.inr (hnext.keeps (invariant_released _) h.serves.orderly hreleased)

theorem hold_or_released_of_happens (h : Keeps settings o p)
    (hnext : Relation.ReflTransGen (Happens o) p p') {hold : Nat × Nat} (hhold : hold ∈ p.holds) :
    hold ∈ p'.holds ∨ p'.session.Released hold.1 := by
  induction hnext with
  | refl => exact Or.inl hhold
  | tail hbefore hlast ih => exact hold_or_released (h.allHappens hbefore) hlast ih

/-! ## What a tick leaves behind -/

/-- A hold time that has ended lies behind. -/
theorem Tick.remaining_lt_of_hold (h : Tick o p p') (hkeeps : Keeps settings o p) {hold : Nat × Nat}
    (hhold : hold ∈ p.holds) (hdue : hold.2 ≤ p.session.clock) :
    remaining p'.session hold.1 < remaining p.session hold.1 := by
  obtain ⟨w, hw, hphase⟩ := hkeeps.exists_wait hhold
  have hbefore : remaining p.session hold.1 = 2 := by
    rw [remaining_eq hw, hphase]
    rfl
  rcases hold_or_released_of_happens hkeeps h.happens hhold with hkept | ⟨r, hr⟩
  · have hlater := h.quiet.released hold hkept
    rw [clock_of_happens h.happens] at hlater
    omega
  · obtain ⟨w', hw', hr'⟩ := Option.bind_eq_some_iff.mp hr
    have hafter := remaining_of_released hw' hr'
    omega

/-- A linger that has ended lies behind. -/
theorem Tick.remaining_lt_of_due (h : Tick o p p') (hkeeps : Keeps settings o p)
    (hdue : p.session.Due i) : remaining p'.session i < remaining p.session i := by
  rw [remaining_of_due hdue]
  obtain ⟨w', hw', -, hgone⟩ := h.expired i hdue
  obtain ⟨w, instant, hw, hend, -⟩ := hdue
  obtain ⟨-, announced, hrelease⟩ := lingerEnd?_eq_some_iff.mp hend
  have hafter := keeps_of_happens (invariant_releaseOf? i _) h.happens hkeeps.serves.orderly
    ((releaseOf?_eq hw).trans hrelease)
  rw [releaseOf?_eq hw'] at hafter
  rw [remaining_of_gone hw' hafter hgone]
  exact Nat.one_pos

theorem lt_flows_of_getElem? (h : Keeps settings o p) {w : Wait}
    (hw : p.session.waits[i]? = some w) : i < o.flows := by
  have hi := (Array.getElem?_eq_some_iff.mp hw).1
  have hsize := h.size
  omega

/-- The deadline of a flow that waits lies ahead, and so it ends at one of the clocks for all. -/
theorem Quiet.millisOf_mem (h : Quiet o p) (hkeeps : Keeps settings o p) {w : Wait} {instant : Nat}
    (hw : p.session.waits[i]? = some w) (hpending : w.phase = .pending)
    (hend : w.deadlineEnd? = some instant) :
    p.session.clock < millisOf instant ∧ millisOf instant ∈ sharedStops o := by
  obtain ⟨l, hl⟩ := hkeeps.serves.orderly
  obtain ⟨hcancelled, -⟩ := h.rests.refuses hl hw hpending
  refine ⟨?_, Finset.mem_insert_of_mem ((hkeeps.serves.flows i w hw).stops instant hend)⟩
  obtain ⟨D, hD, rfl⟩ := Option.map_eq_some_iff.mp hend
  by_contra hpassed
  have hover := isCancelled_iff.mpr (Or.inr ⟨D, hD, millisOf_le_iff.mp (not_lt.mp hpassed)⟩)
  rw [hcancelled] at hover
  cases hover

theorem mem_timers_iff {s : Session} {instant : Nat} :
    instant ∈ s.timers ↔
      ∃ (i : Nat) (w : Wait), s.waits[i]? = some w ∧ s.timer? w = some instant := by
  simp only [timers, List.mem_filterMap, Array.mem_toList_iff, Array.mem_iff_getElem?]
  constructor
  · intro ⟨w, ⟨i, hw⟩, htimer⟩
    exact ⟨i, w, hw, htimer⟩
  · intro ⟨i, w, hw, htimer⟩
    exact ⟨w, ⟨i, hw⟩, htimer⟩

/-- **With every tick something lies behind** that lay ahead before: an end of a flow, the call of
those who are late, or a clock for all. -/
theorem Tick.spends {c : Nat} (h : Tick o (p.atClock c) p') (hkeeps : Keeps settings o p)
    (hquiet : Quiet o p) (hc : p.nextClock? o = some c) :
    (∃ i < o.flows, remaining p'.session i < remaining p.session i) ∨ p.late ≠ [] ∨
      c ∈ sharedStops o := by
  have hkeeps' := hkeeps.atClock hquiet hc
  -- Both are said of the clock before it is known which clock it is.
  have hspent : ∀ hold ∈ p.holds, hold.2 ≤ c →
      remaining p'.session hold.1 < remaining p.session hold.1 :=
    fun _ hhold hdue => h.remaining_lt_of_hold hkeeps' hhold hdue
  have hfreed : ∀ (i : Nat) (w : Wait) (instant : Nat), p.session.waits[i]? = some w →
      p.session.lingerEnd? w = some instant → instant ≤ instantOfMillis c →
      remaining p'.session i < remaining p.session i :=
    fun _ w instant hw hend hpassed => h.remaining_lt_of_due hkeeps' ⟨w, instant, hw, hend, hpassed⟩
  obtain ⟨hupcoming, -⟩ := nextClock?_eq_some_iff.mp hc
  cases hupcoming with
  | late hlate => exact Or.inr (Or.inl hlate)
  | half _ => exact Or.inr (Or.inr (Finset.mem_insert_self _ _))
  | deadline hdeadline _ =>
    obtain ⟨w, hw, hclock⟩ := List.mem_filterMap.mp hdeadline
    obtain ⟨instant, hinstant, rfl⟩ := Option.map_eq_some_iff.mp hclock
    obtain ⟨i, hw⟩ := Array.mem_iff_getElem?.mp (Array.mem_toList_iff.mp hw)
    have hstop := (hkeeps.serves.flows i w hw).stops instant hinstant
    exact Or.inr (Or.inr (Finset.mem_insert_of_mem hstop))
  | @hold hold hhold =>
    obtain ⟨w, hw, -⟩ := hkeeps.exists_wait hhold
    have hlt := hspent hold hhold (le_max_right _ _)
    exact Or.inl ⟨hold.1, lt_flows_of_getElem? hkeeps hw, hlt⟩
  | @timer instant htimer =>
    obtain ⟨i, w, hw, htimer⟩ := mem_timers_iff.mp htimer
    rw [timer?] at htimer
    split at htimer
    case isTrue hpending =>
      obtain ⟨hahead, hstop⟩ :=
        hquiet.millisOf_mem hkeeps hw (Wait.isPending_iff.mp hpending) htimer
      rw [max_eq_right hahead]
      exact Or.inr (Or.inr hstop)
    case isFalse =>
      have hlt := hfreed i w instant hw htimer (millisOf_le_iff.mp (le_max_right _ _))
      exact Or.inl ⟨i, lt_flows_of_getElem? hkeeps hw, hlt⟩

/-- **The clocks that lie ahead become fewer with every tick.** -/
theorem Tick.clocksAhead_lt {c : Nat} (h : Tick o (p.atClock c) p') (hkeeps : Keeps settings o p)
    (hquiet : Quiet o p) (hc : p.nextClock? o = some c) : clocksAhead o p' < clocksAhead o p := by
  have hlt := (nextClock?_eq_some_iff.mp hc).1.lt
  have hclock : p'.session.clock = c := clock_of_happens h.happens
  have hle : ∀ i ∈ Finset.range o.flows, remaining p'.session i ≤ remaining p.session i :=
    fun i _ => remaining_allHappens_le (hkeeps.atClock hquiet hc) h.happens i
  have hflows := Finset.sum_le_sum hle
  have hlate : p'.late = [] := h.quiet.called.resolve_left (by omega)
  have hsubset : ((sharedStops o).filter fun c => p'.session.clock < c) ⊆
      (sharedStops o).filter fun c => p.session.clock < c := by
    refine Finset.monotone_filter_right _ fun c' _ hc' => ?_
    exact hlt.trans (hclock ▸ hc')
  have hstops := Finset.card_le_card hsubset
  unfold clocksAhead
  rw [if_pos hlate]
  rcases h.spends hkeeps hquiet hc with ⟨i, hi, hless⟩ | hcalls | hstop
  · have hstrict := Finset.sum_lt_sum hle ⟨i, Finset.mem_range.mpr hi, hless⟩
    omega
  · rw [if_neg hcalls]
    omega
  · have hstrict : ((sharedStops o).filter fun c => p'.session.clock < c).card <
        ((sharedStops o).filter fun c => p.session.clock < c).card := by
      refine Finset.card_lt_card (Finset.ssubset_iff_subset_ne.mpr ⟨hsubset, fun heq => ?_⟩)
      have hin : c ∈ (sharedStops o).filter fun c => p.session.clock < c :=
        Finset.mem_filter.mpr ⟨hstop, hlt⟩
      rw [← heq, Finset.mem_filter, hclock] at hin
      exact lt_irrefl c hin.2
    omega

/-- **A race comes to its end**: what has passed and what lies ahead is never more than the
bound. -/
theorem Race.le_stopBound {n : Nat} (h : Race settings o n p) :
    n + clocksAhead o p ≤ stopBound o := by
  induction h with
  | @first p _ =>
    have hbound := Simulation.clocksAhead_lt o p
    omega
  | next hrace _ hc h ih =>
    have hless := h.clocksAhead_lt hrace.keeps hrace.quiet hc
    omega

end Admission.Simulation
