import Admission.Proofs.Course
import Admission.Proofs.Settled
import Mathlib.Data.Finset.Card

/-!
# Where the clock stops

A move of the clock stops at every end that lies ahead, up to its target, and settles there. The
number of stops that `Session.advance` grants is the number of ends when it begins, and that is
enough:

> settling sets no new end, and each stop leaves one end behind.

So the clock never goes past an end, and it moves on only from a session that is at rest. With this
every step, also a move of the clock, is a request and turns after it (`Session.turns_step`).
-/

set_option autoImplicit false

namespace Admission.Session

variable {s s₁ : Session} {events : List Event}

/-! ## Instants -/

theorem millisOf_le_iff {instant ms : Nat} :
    millisOf instant ≤ ms ↔ instant ≤ instantOfMillis ms := by
  simp only [millisOf, Span.millisCeil, instantOfMillis, Span.nanosPerMilli]
  omega

theorem instantOfMillis_mono {a b : Nat} (h : a ≤ b) : instantOfMillis a ≤ instantOfMillis b :=
  Nat.mul_le_mul_left _ h

/-- An end that is set now does not lie behind the clock. -/
theorem le_millisOf_add (ms nanos : Nat) : ms ≤ millisOf (instantOfMillis ms + nanos) := by
  simp only [millisOf, Span.millisCeil, instantOfMillis, Span.nanosPerMilli]
  omega

theorem instantAfter_eq_some_iff {instant later : Nat} {D : Span} :
    instantAfter instant D = some later ↔
      instant + D.nanos < instantBound ∧ later = instant + D.nanos := by
  rw [instantAfter, Option.ite_none_right_eq_some, Option.some.injEq, eq_comm (a := later)]

theorem timerEnd_le (instant : Nat) (D : Span) : timerEnd instant D ≤ instant + D.nanos :=
  (Nat.min_le_left _ _).trans (Nat.add_le_add_left (Nat.min_le_left _ _) _)

/-- A timer ends where it should, unless it is longer than thirty years or ends beyond the last
instant at which a timer ends. -/
theorem timerEnd_eq {instant : Nat} {D : Span} (hlength : D.nanos ≤ longestTimer.nanos)
    (hend : instant + D.nanos ≤ lastTimerEnd) : timerEnd instant D = instant + D.nanos := by
  rw [timerEnd, Nat.min_eq_left hlength, Nat.min_eq_left hend]

theorem lastTimerEnd_lt : lastTimerEnd < instantBound := by decide

theorem Follows.now_le (h : Follows s s₁) : s.now ≤ s₁.now := instantOfMillis_mono h.clock_le

/-! ## No new ends -/

theorem mem_ends_iff {instant : Nat} :
    instant ∈ s.ends ↔ ∃ (i : Nat) (w : Wait), s.waits[i]? = some w ∧
      (w.announcedDeadline? = some instant ∨ s.lingerStop? w = some instant) := by
  simp only [ends, List.mem_flatMap, List.mem_append, Option.mem_toList, Array.mem_toList_iff,
    Array.mem_iff_getElem?]
  constructor
  · rintro ⟨w, ⟨i, hw⟩, h⟩
    exact ⟨i, w, hw, h⟩
  · rintro ⟨i, w, hw, h⟩
    exact ⟨w, ⟨i, hw⟩, h⟩

theorem lingerStop?_eq_some_iff {w : Wait} {instant : Nat} :
    s.lingerStop? w = some instant ↔
      s.controller.holds w.ticket = true ∧ w.announcedEnd? = some instant := by
  unfold lingerStop?
  split
  case isTrue h => simp [h]
  case isFalse h => simp [h]

theorem phase_ne_pending_of_announcedEnd? {w : Wait} {instant : Nat}
    (h : w.announcedEnd? = some instant) : w.phase ≠ .pending := by
  intro hpending
  simp [Wait.announcedEnd?, Wait.release?, hpending] at h

theorem Turn.mem_ends (h : Turn s s₁ events) (hs : s.Orderly) {instant : Nat}
    (hend : instant ∈ s₁.ends) : instant ∈ s.ends := by
  obtain ⟨i, w, hw, hstop⟩ := mem_ends_iff.mp hend
  obtain ⟨v, hv, hbecomes⟩ := (h.follows hs).exists_before hw
  refine mem_ends_iff.mpr ⟨i, v, hv, ?_⟩
  rcases hstop with hdeadline | hlinger
  · exact Or.inl (hbecomes.announcedDeadline?_eq ▸ hdeadline)
  · obtain ⟨hholds, hannounced⟩ := lingerStop?_eq_some_iff.mp hlinger
    rw [hbecomes.announcedEnd?_eq] at hannounced
    rw [hbecomes.ticket_eq] at hholds
    refine Or.inr (lingerStop?_eq_some_iff.mpr ⟨?_, hannounced⟩)
    -- The ticket is with its entry after the turn; a turn only takes such tickets away.
    rcases h.holds hs hv (phase_ne_pending_of_announcedEnd? hannounced) with hsame | ⟨hgone, -⟩
    · rwa [← hsame]
    · rw [hgone] at hholds
      cases hholds

theorem Turns.mem_ends (h : Turns s s₁ events) (hs : s.Orderly) {instant : Nat}
    (hend : instant ∈ s₁.ends) : instant ∈ s.ends := by
  induction h with
  | refl s => exact hend
  | cons hturn _ ih => exact hturn.mem_ends hs (ih (hturn.replays.orderly hs) hend)

/-! ## Stop by stop -/

theorem clock_expireIfDue (s : Session) (id : Nat) : (s.expireIfDue id).1.clock = s.clock := by
  unfold expireIfDue
  split
  · rfl
  · split
    · rfl
    · split <;> rfl

theorem clock_evaluate (s : Session) (id : Nat) : (s.evaluate id).1.clock = s.clock := by
  unfold evaluate
  split
  · rfl
  · split
    · exact conclude_clock s _ _
    · rfl

theorem clock_settleRounds (fuel : Nat) (s : Session) :
    (settleRounds fuel s).1.clock = s.clock := by
  induction fuel generalizing s with
  | zero => rfl
  | succ fuel ih =>
    have hexpired : s.expireDue.1.clock = s.clock := forEach_eq s clock clock_expireIfDue _
    have hround := (forEach_eq s.expireDue.1 clock clock_evaluate s.expireDue.1.pendingIds).trans
      hexpired
    simp only [settleRounds]
    split
    · exact hround
    · exact (ih _).trans hround

theorem clock_settle (s : Session) : s.settle.1.clock = s.clock := clock_settleRounds _ s

/-- The ends that lie ahead. -/
def future (s : Session) : Finset Nat := (s.ends.filter fun instant => s.now < instant).toFinset

theorem mem_future_iff {instant : Nat} :
    instant ∈ s.future ↔ instant ∈ s.ends ∧ s.now < instant := by
  simp [future]

theorem nextStop?_eq_none_iff : s.nextStop? = none ↔ s.future = ∅ := by
  rw [nextStop?, List.min?_eq_none_iff, List.map_eq_nil_iff, future, List.toFinset_eq_empty_iff]

theorem nextStop?_eq_some_iff {stop : Nat} :
    s.nextStop? = some stop ↔ (∃ instant ∈ s.future, millisOf instant = stop) ∧
      ∀ instant ∈ s.future, stop ≤ millisOf instant := by
  rw [nextStop?, List.min?_eq_some_iff]
  simp only [List.mem_map, future, List.mem_toFinset, forall_exists_index, and_imp,
    forall_apply_eq_imp_iff₂]

theorem card_future_settle_le (hs : s.Orderly) : s.settle.1.future.card ≤ s.future.card := by
  refine Finset.card_le_card fun instant h => ?_
  obtain ⟨hend, hahead⟩ := mem_future_iff.mp h
  refine mem_future_iff.mpr ⟨(turns_settle s).mem_ends hs hend, ?_⟩
  rwa [now, clock_settle] at hahead

/-- The ends do not depend on the clock. -/
theorem mem_future_clock_iff {ms instant : Nat} :
    instant ∈ ({ s with clock := ms } : Session).future ↔
      instant ∈ s.ends ∧ instantOfMillis ms < instant := mem_future_iff

/-- The end for which the clock stops does not lie ahead any longer. -/
theorem card_future_stop_lt {stop : Nat} (h : s.nextStop? = some stop) :
    ({ s with clock := stop } : Session).future.card < s.future.card := by
  obtain ⟨⟨instant, hinstant, hstop⟩, -⟩ := nextStop?_eq_some_iff.mp h
  have hahead := (mem_future_iff.mp hinstant).2
  have hreached : instant ≤ instantOfMillis stop := millisOf_le_iff.mp hstop.le
  refine Finset.card_lt_card (Finset.ssubset_iff_subset_ne.mpr ⟨fun other hother => ?_, ?_⟩)
  · obtain ⟨hend, hlater⟩ := mem_future_clock_iff.mp hother
    exact mem_future_iff.mpr ⟨hend, (hahead.trans_le hreached).trans hlater⟩
  · intro hsame
    rw [← hsame] at hinstant
    exact absurd (mem_future_clock_iff.mp hinstant).2 (not_lt.mpr hreached)

/-- A session at rest in which no linger is due may move its clock on, up to the next end. -/
theorem AtRest.tick (hrest : s.AtRest) (hlingers : s.NoneDue) (hs : s.Orderly) {ms : Nat}
    (hle : s.clock ≤ ms) (hstops : ∀ instant ∈ s.future, ms ≤ millisOf instant) :
    Turns s { s with clock := ms } [] := by
  obtain ⟨l, hl⟩ := hs
  refine .single (.tick hle (fun i w hw hpending => (hrest.refuses hl hw hpending).1) hlingers ?_)
  exact fun instant hend hahead => hstops instant (mem_future_iff.mpr ⟨hend, hahead⟩)

theorem turns_advanceStops {fuel target : Nat} (hs : s.Orderly) (hle : s.clock ≤ target)
    (hfuel : s.future.card < fuel) :
    Turns s (advanceStops fuel target s).1 (advanceStops fuel target s).2 := by
  induction fuel generalizing s with
  | zero => exact absurd hfuel (Nat.not_lt_zero _)
  | succ fuel ih =>
    have hsettle := turns_settle s
    have hs₁ := hsettle.orderly hs
    have hrest := atRest_settle hs
    have hlingers := noneDue_settle hs
    have hclock := clock_settle s
    have hcard := card_future_settle_le hs
    have hend : (∀ instant ∈ s.settle.1.future, target ≤ millisOf instant) →
        Turns s { s.settle.1 with clock := target } s.settle.2 := by
      intro hstops
      have htick := hrest.tick hlingers hs₁ (hclock.trans_le hle) hstops
      rw [← List.append_nil s.settle.2]
      exact hsettle.trans htick
    simp only [advanceStops]
    split
    case h_1 hnone =>
      refine hend fun instant h => ?_
      rw [nextStop?_eq_none_iff.mp hnone] at h
      cases h
    case h_2 stop hstop =>
      obtain ⟨⟨first, hfirst, hfirst_eq⟩, hleast⟩ := nextStop?_eq_some_iff.mp hstop
      have hahead : s.settle.1.clock ≤ stop := by
        by_contra hbefore
        have hpassed := millisOf_le_iff.mp (hfirst_eq.le.trans (not_le.mp hbefore).le)
        exact absurd (mem_future_iff.mp hfirst).2 (not_lt.mpr hpassed)
      split
      case isTrue hreach =>
        have hless := (card_future_stop_lt hstop).trans_le hcard
        have htick := hrest.tick hlingers hs₁ hahead hleast
        have hs₂ := htick.orderly hs₁
        have hlater := ih hs₂ hreach (hless.trans_le (Nat.le_of_lt_succ hfuel))
        have hfirst := hsettle.trans htick
        rw [List.append_nil] at hfirst
        exact hfirst.trans hlater
      case isFalse hbeyond =>
        exact hend fun instant h => (not_le.mp hbeyond).le.trans (hleast instant h)

/-- **A move of the clock** is made of turns. -/
theorem turns_advance (hs : s.Orderly) (ms : Nat) :
    Turns s (s.advance ms).1 (s.advance ms).2 := by
  refine turns_advanceStops hs (Nat.le_add_right _ _) (Nat.lt_succ_of_le ?_)
  exact (List.toFinset_card_le _).trans (List.length_filter_le _ _)

/-! ## Steps -/

theorem turns_perform_advance (hs : s.Orderly) (ms : Nat) :
    Turns s (s.perform (.advance ms)).1 (s.perform (.advance ms)).2.2 := by
  have hadvance := turns_advance hs ms
  rw [perform]
  -- Only the pair matters here; the move itself is not to be looked at.
  generalize s.advance ms = moved at hadvance ⊢
  exact hadvance

theorem turns_perform (hs : s.Orderly) (what : Step) :
    ∃ s₁ told later, Request s what s₁ told ∧ Turns s₁ (s.perform what).1 later ∧
      (s.perform what).2.2 = told ++ later := by
  by_cases hclock : ∃ ms, what = .advance ms
  · obtain ⟨ms, rfl⟩ := hclock
    have hquestion : Request s (.advance ms) s [] := .question (fun h => h) (by simp) (by simp) rfl
    exact ⟨s, [], _, hquestion, turns_perform_advance hs ms, (List.nil_append _).symm⟩
  · exact request_perform what fun ms h => hclock ⟨ms, h⟩

/-- **A step is a request and turns after it.** -/
theorem turns_step (hs : s.Orderly) (what : Step) :
    ∃ s₁ told later, Request s what s₁ told ∧ Turns s₁ (s.step what).1 later ∧
      (s.step what).2.events = told ++ later := by
  obtain ⟨s₁, told, later, hrequest, hturns, hevents⟩ := turns_perform hs what
  refine ⟨s₁, told, _, hrequest, hturns.trans (turns_settle _), ?_⟩
  simp only [step, hevents, List.append_assoc]

end Admission.Session
