import Admission.Proofs.Lingers
import Admission.Proofs.Tally
import Mathlib.Computability.Primrec.List

-- The library's equations of `List.lookup`, by which runs with a policy are evaluated, come with
-- `Primrec.List`.

/-!
# Who holds an entry, and until when

A ticket is with its entry from the moment its call is let in. It stays until its handle was
released and the linger of that release has been slept through; and settling leaves no ticket behind
whose linger has. So after every step the holders of the entries can be told from the history and
the clock:

> a ticket that was let in is with its entry exactly if it was not released, or was released with a
> linger that goes beyond the last instant, or the sleep through its linger has not ended.

How the others fare does not matter: a ticket that shares an entry neither takes it from the others
nor keeps it for them. What a status counts are these tickets, and their entries.
-/

set_option autoImplicit false

namespace Admission

/-- The slot is not freed by the release at this instant, or before. -/
def Release.Lasts (r : Release) (now : Nat) : Prop :=
  match r with
  | .ends _ freed => now < freed
  | .endless => True

namespace Session

variable {s m m' : Session} {what : Step} {told events : List Event} {capacity : Capacity}
  {linger : Span} {steps : List Step}

theorem lasts_releaseAt_iff {clock now : Nat} {sleep : Sleep} {L : Span} :
    (releaseAt clock sleep L).Lasts now ↔
      instantBound ≤ instantOfMillis clock + L.nanos ∨
        now < sleep.endAfter (instantOfMillis clock) L := by
  cases hr : releaseAt clock sleep L with
  | ends announced freed =>
    obtain ⟨hbefore, -, rfl⟩ := releaseAt_eq_ends_iff.mp hr
    simp [Release.Lasts, not_le.mpr hbefore]
  | endless =>
    have hbeyond : ¬ instantOfMillis clock + L.nanos < instantBound := by
      intro hbefore
      have hends : releaseAt clock sleep L = .ends _ _ :=
        releaseAt_eq_ends_iff.mpr ⟨hbefore, rfl, rfl⟩
      rw [hr] at hends
      cases hends
    simp [Release.Lasts, not_lt.mp hbeyond]

/-! ## The holders after a step -/

/-- **A ticket that was let in is with its entry until its release has freed it.** -/
theorem holds_iff (hs : s.Orderly) (htimely : s.AllTimely) (hnone : s.NoneDue) {i : Nat} {w : Wait}
    (hw : s.waits[i]? = some w) :
    s.controller.holds w.ticket = true ↔
      w.phase.outcome? = some .admitted ∧ ∀ r, w.release? = some r → r.Lasts s.now := by
  obtain ⟨l, hl⟩ := hs
  have hfits := hl.fits i w hw
  have hplace := hl.place_eq_holding_iff (hl.mem_tickets hw)
  cases hphase : w.phase with
  | pending =>
    rw [hphase] at hfits
    simp [← hplace, show l.place w.ticket = .waiting from hfits, Phase.outcome?]
  | cancelled =>
    rw [hphase] at hfits
    simp [← hplace, show l.place w.ticket = .nowhere from hfits, Phase.outcome?]
  | abandoned =>
    rw [hphase] at hfits
    simp [← hplace, show l.place w.ticket = .nowhere from hfits, Phase.outcome?]
  | admitted held release =>
    have hrelease : w.release? = release := by rw [Wait.release?, hphase]
    simp only [Phase.outcome?, true_and, hrelease]
    rw [hphase] at hfits
    -- Only with a linger that ends the phase leaves the place open, and there time decides: nothing
    -- is due that is with its entry, and nothing has gone that is not due.
    rcases release with _ | (⟨announced, freed⟩ | _)
    · simp [← hplace, show l.place w.ticket = .holding from hfits]
    · simp only [Option.some.injEq, forall_eq', Release.Lasts]
      constructor
      · intro hholds
        by_contra hpassed
        have hend := lingerEnd?_eq_some_iff.mpr ⟨hholds, announced, hrelease⟩
        exact hnone i ⟨w, freed, hw, hend, not_lt.mp hpassed⟩
      · intro hahead
        by_contra hgone
        rw [Bool.not_eq_true] at hgone
        have hended := (htimely i w announced freed hw hrelease).freed_le_now hgone
        exact absurd hended (not_le.mpr hahead)
    · simp [← hplace, show l.place w.ticket = .holding from hfits, Release.Lasts]

theorem noneDue_run (steps : List Step) : ((new capacity linger).run steps).1.NoneDue := by
  refine run_induction (P := fun _ _ s => s.NoneDue) ?_ ?_ steps
  · rintro i ⟨w, instant, hw, -⟩
    simp [new] at hw
  · intro steps what r hs _
    exact noneDue_step hs what

/-! ## What the history tells -/

/-- The call was let in, and its slot was not freed: its handle was not released, or a step released
it, at some clock and with some linger, and then the linger goes beyond the last instant or the
sleep through it has not ended. -/
def Occupies (s₀ : Session) (steps : List Step) (i : Nat) : Prop :=
  (∃ clock, ⟨i, .admitted, clock⟩ ∈ settledIn (s₀.run steps).2) ∧
    ((∀ clock L, ¬ ReleasedAt s₀ steps i clock L) ∨
      ∃ what clock L, ReleasedBy s₀ steps i what clock L ∧
        (instantBound ≤ instantOfMillis clock + L.nanos ∨
          (s₀.run steps).1.now < what.sleep.endAfter (instantOfMillis clock) L))

theorem releaseOf?_lasts_iff {i : Nat} :
    (∀ r, ((new capacity linger).run steps).1.releaseOf? i = some r →
        r.Lasts ((new capacity linger).run steps).1.now) ↔
      (∀ clock L, ¬ ReleasedAt (new capacity linger) steps i clock L) ∨
        ∃ what clock L, ReleasedBy (new capacity linger) steps i what clock L ∧
          (instantBound ≤ instantOfMillis clock + L.nanos ∨
            ((new capacity linger).run steps).1.now <
              what.sleep.endAfter (instantOfMillis clock) L) := by
  simp only [← lasts_releaseAt_iff]
  cases hr : ((new capacity linger).run steps).1.releaseOf? i with
  | none =>
    have hnone : ∀ clock L, ¬ ReleasedAt (new capacity linger) steps i clock L := by
      rintro clock L ⟨what, hreleased⟩
      have hsome := (releaseOf?_run_iff steps i _).mpr ⟨what, clock, L, hreleased, rfl⟩
      rw [hr] at hsome
      cases hsome
    simp [hnone]
  | some r =>
    obtain ⟨what, clock, L, hreleased, rfl⟩ := (releaseOf?_run_iff steps i r).mp hr
    simp only [Option.some.injEq, forall_eq']
    constructor
    · intro hlasts
      exact Or.inr ⟨what, clock, L, hreleased, hlasts⟩
    · rintro (hnone | ⟨what', clock', L', hreleased', hlasts⟩)
      · exact absurd ⟨what, hreleased⟩ (hnone clock L)
      · obtain ⟨rfl, rfl, rfl⟩ := hreleased.unique hreleased'
        exact hlasts

theorem occupies_iff {i : Nat} :
    Occupies (new capacity linger) steps i ↔
      ∃ w, ((new capacity linger).run steps).1.waits[i]? = some w ∧
        ((new capacity linger).run steps).1.controller.holds w.ticket = true := by
  have hs : ((new capacity linger).run steps).1.Orderly := (orderly_new capacity linger).run steps
  have hholds : ∀ {w : Wait}, ((new capacity linger).run steps).1.waits[i]? = some w → _ :=
    fun hw => holds_iff hs (allTimely_run steps) (noneDue_run steps) hw
  rw [Occupies, (tally_run capacity linger steps).exists_settled_iff, ← releaseOf?_lasts_iff]
  constructor
  · rintro ⟨⟨w, hw, hadmitted⟩, hrelease⟩
    rw [releaseOf?_eq hw] at hrelease
    exact ⟨w, hw, (hholds hw).mpr ⟨hadmitted, hrelease⟩⟩
  · rintro ⟨w, hw, hin⟩
    rw [releaseOf?_eq hw]
    obtain ⟨hadmitted, hrelease⟩ := (hholds hw).mp hin
    exact ⟨⟨w, hw, hadmitted⟩, hrelease⟩

theorem ReleasedBy.admitted {i clock : Nat} {L : Span}
    (h : ReleasedBy (new capacity linger) steps i what clock L) :
    ∃ clock', ⟨i, .admitted, clock'⟩ ∈ settledIn ((new capacity linger).run steps).2 := by
  have hrelease := (releaseOf?_run_iff steps i _).mpr ⟨what, clock, L, h, rfl⟩
  obtain ⟨w, hw, hrelease_w⟩ := Option.bind_eq_some_iff.mp hrelease
  obtain ⟨held, hphase⟩ := Wait.phase_of_release? hrelease_w
  refine (tally_run capacity linger steps).exists_settled_iff.mpr ⟨w, hw, ?_⟩
  rw [hphase, Phase.outcome?]

/-- A slot is used until the linger has been slept through. -/
theorem ReleasedBy.occupies_iff {i clock : Nat} {L : Span}
    (h : ReleasedBy (new capacity linger) steps i what clock L) :
    Occupies (new capacity linger) steps i ↔
      instantBound ≤ instantOfMillis clock + L.nanos ∨
        ((new capacity linger).run steps).1.now <
          what.sleep.endAfter (instantOfMillis clock) L := by
  constructor
  · rintro ⟨-, hnone | ⟨what', clock', L', hreleased, hlasts⟩⟩
    · exact absurd ⟨what, h⟩ (hnone clock L)
    · obtain ⟨rfl, rfl, rfl⟩ := h.unique hreleased
      exact hlasts
  · exact fun hlasts => ⟨h.admitted, Or.inr ⟨what, clock, L, h, hlasts⟩⟩

/-- With a linger that can be slept through, a slot is used until the linger has ended. -/
theorem ReleasedBy.occupies_iff_of_canLast {i clock : Nat} {L : Span}
    (h : ReleasedBy (new capacity linger) steps i what clock L)
    (hlast : what.sleep.CanLast (instantOfMillis clock) L) :
    Occupies (new capacity linger) steps i ↔
      instantBound ≤ instantOfMillis clock + L.nanos ∨
        ((new capacity linger).run steps).1.now < instantOfMillis clock + L.nanos := by
  rw [h.occupies_iff, hlast.endAfter_eq]

/-! ## What a status counts -/

end Session

namespace Ledger.Accounts

variable {l : Ledger} {s : Session}

theorem exists_wait_of_holding (h : l.Accounts s) {t : Ticket}
    (ht : t ∈ {t | l.place t = .holding}) : ∃ w, s.waits[t.id]? = some w ∧ w.ticket = t := by
  have hplace : l.place t = .holding := ht
  exact h.exists_wait (by simp [hplace])

theorem exists_holding_iff (h : l.Accounts s) (i : Nat) :
    (∃ t ∈ {t | l.place t = .holding}, t.id = i) ↔
      ∃ w, s.waits[i]? = some w ∧ s.controller.holds w.ticket = true := by
  constructor
  · rintro ⟨t, ht, rfl⟩
    obtain ⟨w, hw, rfl⟩ := h.exists_wait_of_holding ht
    exact ⟨w, hw, (h.place_eq_holding_iff (h.mem_tickets hw)).mp ht⟩
  · rintro ⟨w, hw, hholds⟩
    exact ⟨w.ticket, (h.place_eq_holding_iff (h.mem_tickets hw)).mpr hholds, h.id_eq hw⟩

end Ledger.Accounts

namespace Session

variable {s m m' : Session} {what : Step} {told events : List Event} {capacity : Capacity}
  {linger : Span} {steps : List Step}

/-! ### Calls and entries

What the entries' index says of a session, in terms of its calls. -/

theorem mem_ids_iff_holds (hs : s.Orderly) {i : Nat} {e : Entry} :
    i ∈ s.controller.occupancy.ids e ↔
      ∃ w, s.waits[i]? = some w ∧ w.ticket.entry = e ∧ s.controller.holds w.ticket = true := by
  obtain ⟨l, hl⟩ := hs
  constructor
  · intro hi
    rw [← hl.controller, hl.sound.holding.mem_ids_iff] at hi
    obtain ⟨t, ht, rfl, rfl⟩ := hi
    obtain ⟨w, hw, rfl⟩ := hl.exists_wait_of_holding ht
    exact ⟨w, hw, rfl, (hl.place_eq_holding_iff (hl.mem_tickets hw)).mp ht⟩
  · rintro ⟨w, hw, rfl, hholds⟩
    rwa [Controller.holds, Std.ExtTreeSet.contains_iff_mem, hl.id_eq hw] at hholds

theorem isOccupied_iff_exists_mem (hs : s.Orderly) {e : Entry} :
    s.controller.isOccupied e = true ↔ ∃ i, i ∈ s.controller.occupancy.ids e := by
  obtain ⟨l, hl⟩ := hs
  have hpruned := hl.sound.holding.pruned
  rw [hl.controller] at hpruned
  rw [Controller.isOccupied, Std.ExtTreeMap.contains_iff_mem, hpruned.mem_iff]

theorem numHolders_eq_ncard_holds (hs : s.Orderly) :
    s.controller.numHolders =
      {i : Nat | ∃ w : Wait, s.waits[i]? = some w ∧ s.controller.holds w.ticket = true}.ncard := by
  obtain ⟨l, hl⟩ := hs
  have hinj := hl.sound.injOn_place (p := .holding) (by decide)
  have hids : Ticket.id '' {t | l.place t = .holding} =
      {i : Nat | ∃ w : Wait, s.waits[i]? = some w ∧ s.controller.holds w.ticket = true} :=
    Set.ext hl.exists_holding_iff
  rw [← hids, hinj.ncard_image, ← hl.sound.holding.total_eq_ncard hinj, hl.controller,
    Controller.numHolders]

/-! ### Calls and entries of a run -/

theorem mem_ids_iff {i : Nat} {e : Entry} :
    i ∈ ((new capacity linger).run steps).1.controller.occupancy.ids e ↔
      (Step.entries steps)[i]? = some e ∧ Occupies (new capacity linger) steps i := by
  rw [mem_ids_iff_holds ((orderly_new capacity linger).run steps), occupies_iff]
  constructor
  · rintro ⟨w, hw, rfl, hholds⟩
    exact ⟨entry_of_run hw, w, hw, hholds⟩
  · rintro ⟨hcall, w, hw, hholds⟩
    exact ⟨w, hw, Option.some.inj ((entry_of_run hw).symm.trans hcall), hholds⟩

theorem isOccupied_iff_occupies (e : Entry) :
    ((new capacity linger).run steps).1.controller.isOccupied e = true ↔
      ∃ i, (Step.entries steps)[i]? = some e ∧ Occupies (new capacity linger) steps i := by
  rw [isOccupied_iff_exists_mem ((orderly_new capacity linger).run steps)]
  simp only [mem_ids_iff]

theorem numEntries_eq_ncard :
    ((new capacity linger).run steps).1.controller.numEntries =
      {e | ∃ i, (Step.entries steps)[i]? = some e ∧
        Occupies (new capacity linger) steps i}.ncard := by
  obtain ⟨l, hl⟩ : ((new capacity linger).run steps).1.Orderly :=
    (orderly_new capacity linger).run steps
  have hindex := hl.sound.holding
  have hentries : Ticket.entry '' {t | l.place t = .holding} =
      {e | ∃ i, (Step.entries steps)[i]? = some e ∧ Occupies (new capacity linger) steps i} := by
    ext e
    rw [Set.mem_ofPred_eq, ← isOccupied_iff_occupies, ← hl.controller, Controller.isOccupied,
      Std.ExtTreeMap.contains_iff_mem, hindex.mem_iff]
    rfl
  rw [← hentries, ← hindex.size_eq_ncard, hl.controller, Controller.numEntries]

theorem numHolders_eq_ncard :
    ((new capacity linger).run steps).1.controller.numHolders =
      {i | Occupies (new capacity linger) steps i}.ncard := by
  rw [numHolders_eq_ncard_holds ((orderly_new capacity linger).run steps)]
  simp only [occupies_iff]

/-- A status has a row for each holder. -/
theorem length_holders (hs : s.Orderly) : s.status.holders.length = s.controller.numHolders := by
  obtain ⟨l, hl⟩ := hs
  have hrow : ∀ i ∈ s.holderIds, (s.waits[i]?.map s.holderOf).isSome = true := by
    intro i hi
    have hi' : i ∈ l.controller.occupancy.listing := by
      rw [hl.controller]
      exact hi
    obtain ⟨t, ht, rfl⟩ := (hl.sound.holding.mem_listing_iff i).mp hi'
    obtain ⟨w, hw, -⟩ := hl.exists_wait_of_holding ht
    rw [hw]
    rfl
  have hlength : s.holderIds.length = s.controller.numHolders :=
    Buckets.length_listing s.controller.occupancy
  rw [← hlength, status, List.length_filterMap_eq_countP, List.countP_eq_length]
  exact hrow

/-! ## The moment when a ticket leaves -/

/-- In the course of one more step, in the session `m`, the linger of a call has been slept through
and its ticket leaves its entry; `freed` tells whether that frees the entry. -/
structure Expires (s₀ : Session) (steps : List Step) (what : Step) (m : Session) (t : Ticket)
    (freed : Bool) : Prop where
  passes : (s₀.run steps).1.Passes what m (m.withController (m.controller.apply (.expire t)))
    [.expired t freed]
  holds : m.controller.holds t = true
  /-- The entry goes with its last holder. -/
  last : freed = true ↔ ∀ i ∈ m.controller.occupancy.ids t.entry, i = t.id
  /-- The sleep through the call's linger has ended. If it can last so long, then the moment is the
  first whole millisecond that is not before the end of the linger. -/
  exact_moment : ∃ first clock L, ReleasedBy s₀ (steps ++ [what]) t.id first clock L ∧
    first.sleep.endAfter (instantOfMillis clock) L ≤ m.now ∧
    (first.sleep.CanLast (instantOfMillis clock) L →
      m.clock = millisOf (instantOfMillis clock + L.nanos))

theorem wouldFree_iff {c : Controller} {t : Ticket} (h : c.holds t = true) :
    c.wouldFree t = true ↔ ∀ i ∈ c.occupancy.ids t.entry, i = t.id := by
  unfold Controller.holds Buckets.ids at h
  unfold Controller.wouldFree Buckets.ids
  cases hids : c.occupancy[t.entry]? with
  | none =>
    rw [hids] at h
    simp at h
  | some holders =>
    have hfree : (holders.erase t.id).isEmpty = true ↔ ∀ i, i ∉ holders.erase t.id := by
      rw [Std.ExtTreeSet.isEmpty_iff, Std.ExtTreeSet.ext_mem_iff]
      simp
    simp only [hfree, Std.ExtTreeSet.mem_erase, Option.getD_some, ne_eq, compare_eq_iff_eq]
    grind

theorem Request.expires_nobody (h : Request s what m told) (t : Ticket) (freed : Bool) :
    .expired t freed ∉ told := by
  intro hin
  cases h with
  | release _ _ _ _ htold =>
    rcases List.mem_append.mp hin with haside | hreleased
    · exact htold _ haside
    · simp only [Session.release, releaseEvents] at hreleased
      split at hreleased <;> simp at hreleased
  | nothing _ _ _ _ htold => exact htold _ hin
  | abandon _ => simp [Session.abandon] at hin
  | _ => simp at hin

/-- The turn that takes a ticket from its entry. -/
theorem Turn.expires (h : Turn m m' events) {t : Ticket} {freed : Bool}
    (hin : .expired t freed ∈ events) :
    ∃ (i : Nat) (w : Wait) (instant : Nat), m.waits[i]? = some w ∧ w.ticket = t ∧
      m.lingerEnd? w = some instant ∧ instant ≤ m.now ∧ freed = m.controller.wouldFree t ∧
      m' = m.withController (m.controller.apply (.expire t)) ∧ events = [.expired t freed] := by
  cases h with
  | @expire i w instant hw hend hdue =>
    obtain ⟨rfl, rfl⟩ := Event.expired.inj (List.mem_singleton.mp hin)
    exact ⟨i, w, instant, hw, rfl, hend, hdue, rfl, rfl, rfl⟩
  | evaluate _ _ _ =>
    unfold conclude at hin
    split at hin <;> simp at hin
  | blocked u => simp at hin
  | tick _ _ _ _ => cases hin

theorem exists_expires (capacity : Capacity) (linger : Span) (steps : List Step) (what : Step)
    {t : Ticket} {freed : Bool}
    (hin : .expired t freed ∈ (((new capacity linger).run steps).1.step what).2.events) :
    ∃ m, Expires (new capacity linger) steps what m t freed := by
  have hs : ((new capacity linger).run steps).1.Orderly := (orderly_new capacity linger).run steps
  rcases mem_events_step hs hin with ⟨s₁, told, hrequest, htold⟩ |
    ⟨m, m', now, hpasses, hturn, hnow⟩
  · exact absurd htold (hrequest.expires_nobody t freed)
  obtain ⟨hm, htimely⟩ := invariant_allTimely.passes hpasses hs (allTimely_run steps)
  have hfollows := hpasses.follows hturn hs
  obtain ⟨i, w, instant, hw, rfl, hend, hdue, rfl, rfl, rfl⟩ := hturn.expires hnow
  obtain ⟨hholds, announced, hrelease⟩ := lingerEnd?_eq_some_iff.mp hend
  obtain rfl := hm.id_eq hw
  refine ⟨m, hpasses, hholds, wouldFree_iff hholds, ?_⟩
  -- The release is still there when the step is over, and so it is told by the history.
  have hafter : (((new capacity linger).run steps).1.step what).1.releaseOf? w.ticket.id =
      some (.ends announced instant) := by
    rw [hfollows.releaseOf?_eq, releaseOf?_eq hw, hrelease]
  have hrun : (((new capacity linger).run steps).1.step what).1 =
      ((new capacity linger).run (steps ++ [what])).1 := by rw [run_concat]
  rw [hrun, releaseOf?_run_iff] at hafter
  obtain ⟨first, clock, L, hreleased, hends⟩ := hafter
  obtain ⟨-, rfl, rfl⟩ := releaseAt_eq_ends_iff.mp hends.symm
  refine ⟨first, clock, L, hreleased, hdue, fun hlast => ?_⟩
  rw [hlast.endAfter_eq] at hdue
  exact ((htimely _ w _ _ hw hrelease).clock_le hholds).antisymm (millisOf_le_iff.mpr hdue)

/-- **Occupancy is exact.** After every run: under each entry stand the calls for it that were let
in and whose slot was not freed, and the entry is occupied exactly if there is such a call. A status
counts these entries and these calls, and so does the last answer. A handle is released once; and
with a linger that can be slept through, the ticket stays exactly until the linger has ended: a
thread sleeps through every linger, a timer through those that it can run. In the course of every
further step a ticket leaves its entry at the first whole millisecond that is not before the end of
its linger, and the entry is freed exactly if no other ticket is left there. -/
theorem occupancy_is_exact (capacity : Capacity) (linger : Span) (steps : List Step) :
    let s₀ := new capacity linger
    let s := (s₀.run steps).1
    (∀ e i, i ∈ s.controller.occupancy.ids e ↔
        (Step.entries steps)[i]? = some e ∧ Occupies s₀ steps i) ∧
      (∀ e, s.controller.isOccupied e = true ↔
        ∃ i, (Step.entries steps)[i]? = some e ∧ Occupies s₀ steps i) ∧
      s.status.numEntries =
        {e | ∃ i, (Step.entries steps)[i]? = some e ∧ Occupies s₀ steps i}.ncard ∧
      s.status.holders.length = {i | Occupies s₀ steps i}.ncard ∧
      (∀ a, (s₀.run steps).2.getLast? = some a →
        a.numEntries = s.status.numEntries ∧ a.numHolders = s.status.holders.length) ∧
      (∀ i what clock L, ReleasedBy s₀ steps i what clock L →
        (∀ what' clock' L', ReleasedBy s₀ steps i what' clock' L' →
          what' = what ∧ clock' = clock ∧ L' = L) ∧
        (what.sleep.CanLast (instantOfMillis clock) L →
          (Occupies s₀ steps i ↔ instantBound ≤ instantOfMillis clock + L.nanos ∨
            s.now < instantOfMillis clock + L.nanos))) ∧
      ∀ what t freed, .expired t freed ∈ (s.step what).2.events →
        ∃ m, Expires s₀ steps what m t freed := by
  intro s₀ s
  subst s s₀
  have hs : ((new capacity linger).run steps).1.Orderly := (orderly_new capacity linger).run steps
  have hholders := length_holders hs
  have hentries : ((new capacity linger).run steps).1.status.numEntries =
      ((new capacity linger).run steps).1.controller.numEntries := rfl
  refine ⟨fun e i => ?_, fun e => ?_, ?_, ?_, fun a ha => ?_,
    fun i what clock L hreleased => ⟨?_, ?_⟩, fun what t freed hin => ?_⟩
  · exact mem_ids_iff
  · exact isOccupied_iff_occupies e
  · rw [hentries]
    exact numEntries_eq_ncard
  · rw [hholders]
    exact numHolders_eq_ncard
  · rw [hentries, hholders]
    exact ⟨(counts_of_getLast? ha).1, (counts_of_getLast? ha).2.2⟩
  · exact fun what' clock' L' => hreleased.unique
  · exact hreleased.occupies_iff_of_canLast
  · exact exists_expires capacity linger steps what hin

/-- Two callers share an entry and release it one after the other, with three milliseconds each. The
entry is free when the later linger has ended. -/
example :
    let a : Entry := ⟨"udp", "l", "a"⟩
    let steps := [.wait a "" .standard "root" none, .wait a "" .standard "root" none, .finish 0,
      .advance 2, .finish 1, .advance 1, .advance 1, .advance 1]
    ((new (.limited 1) ⟨3000000⟩).run steps).2.map (fun a => (a.numEntries, a.numHolders)) =
      [(1, 1), (1, 2), (1, 2), (1, 2), (1, 2), (1, 1), (1, 1), (0, 0)] := by decide_cbv

/-- A linger of forty years frees its slot after thirty: the handle was released at the beginning,
from within the scheduler, so its linger ends ten years later, at an instant that can be named. -/
theorem freed_before_end_of_linger :
    let a : Entry := ⟨"udp", "l", "a"⟩
    let L : Span := .ofWholeSeconds (40 * 365 * 86400)
    let s₀ := new (.limited 1) L
    let steps := [.wait a "" .standard "root" none, .finish 0, .advance (30 * 365 * 86400 * 1000)]
    let r := s₀.run steps
    ReleasedAt s₀ steps 0 0 L ∧ instantOfMillis 0 + L.nanos < instantBound ∧
      r.1.now < instantOfMillis 0 + L.nanos ∧ r.1.controller.isOccupied a = false ∧
      r.2.map (fun answer => (answer.numEntries, answer.numHolders)) =
        [(1, 1), (1, 1), (0, 0)] := by
  intro a L s₀ steps r
  refine ⟨⟨.finish 0, [.wait a "" .standard "root" none], _, rfl, ⟨rfl, ?_⟩, ?_⟩, ?_⟩
  · refine ⟨⟨⟨0, a, "", .standard⟩, "root", 0, none, .admitted true none⟩, ?_, rfl, ?_⟩
    · subst r steps s₀ L a
      decide_cbv
    · subst r steps s₀ L a
      decide_cbv
  · subst r steps s₀ L a
    decide_cbv
  · subst r steps s₀ L a
    decide_cbv

end Session

end Admission
