import Admission.Proofs.Stops

/-!
# Contention has one outcome

When more tickets wait than there are slots, the order of the evaluations decides who gets in: of
several tickets of one class those that are looked at first, and then, whatever their class, those
that share an entry with somebody who got in. It does not decide how many entries are occupied in
the end:

> evaluations take tickets from the room to their entries and nowhere else, so the entries that
> somebody holds or waits for stay the same; and they go on until all of these are occupied or the
> limit is reached.

The first half is kept by every evaluation (`Ledger.Admits`), the second is what it means that no
evaluation would let anybody in. Nobody who waits is cancelled here.
-/

set_option autoImplicit false

namespace Admission

/-- How many entries are occupied in the end, of so many that are occupied now and so many that are
claimed, the occupied ones among them. -/
def Capacity.filled (k : Capacity) (occupied claimed : Nat) : Nat :=
  match k with
  | .limited m => max occupied (min m.toNat claimed)
  | .unlimited => claimed

/-- Is the transaction an evaluation of a ticket that is not cancelled? -/
def Transaction.Looks (tx : Transaction) : Prop := ∃ t, tx = .evaluate t false

namespace Controller

/-- The occupied entries. -/
def occupied (c : Controller) : Finset Entry := c.occupancy.keys.toFinset

theorem mem_occupied_iff {c : Controller} {e : Entry} : e ∈ c.occupied ↔ c.isOccupied e = true := by
  rw [occupied, List.mem_toFinset, Std.ExtTreeMap.mem_keys, isOccupied,
    Std.ExtTreeMap.contains_iff_mem]

theorem card_occupied (c : Controller) : c.occupied.card = c.numEntries := by
  rw [occupied, List.toFinset_card_of_nodup c.occupancy.nodup_keys, Std.ExtTreeMap.length_keys]
  rfl

end Controller

namespace Ledger

variable {l l' l'' : Ledger} {e : Entry} {t : Ticket}

/-- The entries for which somebody waits. -/
def wanted (l : Ledger) : Finset Entry :=
  ((l.tickets.filter fun t => l.place t = .waiting).map Ticket.entry).toFinset

/-- The entries that somebody holds or waits for. -/
def claimed (l : Ledger) : Finset Entry := l.controller.occupied ∪ l.wanted

/-- No evaluation of a ticket that waits would end its wait. -/
def IsSettled (l : Ledger) : Prop :=
  ∀ t ∈ l.tickets, l.place t = .waiting → l.controller.ruling? (.evaluate t false) = none

instance (l : Ledger) : Decidable l.IsSettled :=
  inferInstanceAs (Decidable (∀ t ∈ l.tickets, _))

/-- The ledger `l'` comes from `l` by letting some of those in who wait: nobody goes anywhere else,
and no more entries are occupied than before or than the limit has it. -/
structure Admits (l l' : Ledger) : Prop where
  sound : l'.Sound
  capacity : l'.controller.capacity = l.controller.capacity
  nowhere_iff : ∀ t, l'.place t = .nowhere ↔ l.place t = .nowhere
  holding : ∀ t, l.place t = .holding → l'.place t = .holding
  ceiling : ∀ m, l.controller.capacity = .limited m →
    l'.controller.numEntries ≤ max l.controller.numEntries m.toNat

/-! ## Claimed entries -/

theorem Sound.mem_wanted_iff (h : l.Sound) :
    e ∈ l.wanted ↔ ∃ t, l.place t = .waiting ∧ t.entry = e := by
  simp only [wanted, List.mem_toFinset, List.mem_map, List.mem_filter, decide_eq_true_eq]
  constructor
  · rintro ⟨t, ⟨-, ht⟩, rfl⟩
    exact ⟨t, ht, rfl⟩
  · rintro ⟨t, ht, rfl⟩
    exact ⟨t, ⟨h.known t (by simp [ht]), ht⟩, rfl⟩

theorem Sound.mem_claimed_iff (h : l.Sound) :
    e ∈ l.claimed ↔ ∃ t, l.place t ≠ .nowhere ∧ t.entry = e := by
  rw [claimed, Finset.mem_union, Controller.mem_occupied_iff, h.isOccupied_iff, h.mem_wanted_iff]
  constructor
  · rintro (⟨t, ht, rfl⟩ | ⟨t, ht, rfl⟩)
    · exact ⟨t, by simp [ht], rfl⟩
    · exact ⟨t, by simp [ht], rfl⟩
  · rintro ⟨t, ht, rfl⟩
    cases hp : l.place t with
    | waiting => exact Or.inr ⟨t, hp, rfl⟩
    | holding => exact Or.inl ⟨t, hp, rfl⟩
    | nowhere => exact absurd hp ht

/-! ## One evaluation -/

theorem IsSettled.ne_granted (h : l.IsSettled) (hl : l.Sound) (ht : l.place t = .waiting) :
    l.controller.verdict t false ≠ .granted := by
  intro hgranted
  have hnone := h t (hl.known t (by simp [ht])) ht
  simp only [Controller.ruling?, hgranted] at hnone
  cases hnone

/-- A ticket that is not cancelled is let in by its evaluation, or nothing changes. -/
theorem apply_evaluate_cases (l : Ledger) (t : Ticket) :
    (l.controller.verdict t false = .granted ∧
        (l.apply (.evaluate t false)).place = Function.update l.place t .holding) ∨
      (l.controller.ruling? (.evaluate t false) = none ∧ l.apply (.evaluate t false) = l) := by
  cases hv : l.controller.verdict t false with
  | granted =>
    refine Or.inl ⟨rfl, ?_⟩
    simp only [apply, move?, hv, moved]
  | withdrawn => exact absurd (Controller.verdict_eq_withdrawn_iff.mp hv).1 Bool.false_ne_true
  | blocked =>
    refine Or.inr ⟨?_, apply_evaluate_of_stays (Or.inl hv)⟩
    simp only [Controller.ruling?, hv]
  | orphaned =>
    refine Or.inr ⟨?_, apply_evaluate_of_stays (Or.inr hv)⟩
    simp only [Controller.ruling?, hv]

namespace Admits

theorem refl (h : l.Sound) : l.Admits l where
  sound := h
  capacity := rfl
  nowhere_iff _ := Iff.rfl
  holding _ ht := ht
  ceiling _ _ := le_max_left _ _

theorem trans (h : l.Admits l') (h' : l'.Admits l'') : l.Admits l'' where
  sound := h'.sound
  capacity := h'.capacity.trans h.capacity
  nowhere_iff t := (h'.nowhere_iff t).trans (h.nowhere_iff t)
  holding t ht := h'.holding t (h.holding t ht)
  ceiling m hm :=
    (h'.ceiling m (h.capacity.trans hm)).trans (max_le (h.ceiling m hm) (le_max_right _ _))

theorem evaluate (h : l.Sound) (ht : l.place t = .waiting) :
    l.Admits (l.apply (.evaluate t false)) where
  sound := h.evaluate ht false
  capacity := Controller.capacity_apply_evaluate _ t false
  nowhere_iff u := by
    rcases l.apply_evaluate_cases t with ⟨-, hplace⟩ | ⟨-, hsame⟩
    · rw [hplace]
      by_cases hut : u = t
      · simp [hut, ht]
      · rw [Function.update_of_ne hut]
    · rw [hsame]
  holding u hu := by
    rcases l.apply_evaluate_cases t with ⟨-, hplace⟩ | ⟨-, hsame⟩
    · rw [hplace]
      by_cases hut : u = t
      · rw [hut, Function.update_self]
      · rwa [Function.update_of_ne hut]
    · rwa [hsame]
  ceiling m hm := Controller.numEntries_apply_le_max_of_before hm _

theorem applyAll (h : l.Sound) {order : List Transaction} (hallow : l.AllowsAll order)
    (hlooks : ∀ tx ∈ order, tx.Looks) : l.Admits (l.applyAll order) := by
  induction order generalizing l with
  | nil => exact .refl h
  | cons tx rest ih =>
    obtain ⟨⟨t, rfl⟩, hrest⟩ := List.forall_mem_cons.mp hlooks
    have hone := Admits.evaluate h hallow.1
    exact hone.trans (ih hone.sound hallow.2 hrest)

/-! ## Where it ends -/

theorem claimed_eq (h : l.Admits l') (hl : l.Sound) : l'.claimed = l.claimed := by
  ext e
  simp only [h.sound.mem_claimed_iff, hl.mem_claimed_iff, ne_eq, h.nowhere_iff]

/-- Nobody is cancelled. -/
theorem waiting_or_holding (h : l.Admits l') (ht : l.place t = .waiting) :
    l'.place t = .waiting ∨ l'.place t = .holding := by
  cases hp : l'.place t with
  | waiting => exact Or.inl rfl
  | holding => exact Or.inr rfl
  | nowhere =>
    rw [h.nowhere_iff, ht] at hp
    cases hp

theorem occupied_subset (h : l.Admits l') (hl : l.Sound) :
    l.controller.occupied ⊆ l'.controller.occupied := by
  intro e he
  rw [Controller.mem_occupied_iff, hl.isOccupied_iff] at he
  obtain ⟨t, ht, rfl⟩ := he
  exact Controller.mem_occupied_iff.mpr ((h.sound.isOccupied_iff _).mpr ⟨t, h.holding t ht, rfl⟩)

theorem numEntries_le (h : l.Admits l') (hl : l.Sound) :
    l.controller.numEntries ≤ l'.controller.numEntries := by
  rw [← Controller.card_occupied, ← Controller.card_occupied]
  exact Finset.card_le_card (h.occupied_subset hl)

/-- Where the limit is reached, entries are shared and nothing else. -/
theorem occupied_eq (h : l.Admits l') (hl : l.Sound) (hfull : l.controller.IsFull) :
    l'.controller.occupied = l.controller.occupied := by
  obtain ⟨m, hcap, hm⟩ := hfull
  refine (Finset.eq_of_subset_of_card_le (h.occupied_subset hl) ?_).symm
  rw [Controller.card_occupied, Controller.card_occupied]
  exact (h.ceiling m hcap).trans (max_le le_rfl hm)

end Admits

theorem occupied_subset_claimed (l : Ledger) : l.controller.occupied ⊆ l.claimed :=
  Finset.subset_union_left

/-- **All claimed entries are occupied exactly if nobody is left waiting.** Whoever waits for an
entry that is occupied could share it. -/
theorem Sound.numEntries_eq_card_claimed_iff (h : l.Sound) (hsettled : l.IsSettled) :
    l.controller.numEntries = l.claimed.card ↔ ∀ t, l.place t ≠ .waiting := by
  rw [← Controller.card_occupied]
  constructor
  · intro hcard t ht
    have hall := Finset.eq_of_subset_of_card_le l.occupied_subset_claimed hcard.ge
    have hmem : t.entry ∈ l.claimed := h.mem_claimed_iff.mpr ⟨t, by simp [ht], rfl⟩
    rw [← hall, Controller.mem_occupied_iff] at hmem
    exact hsettled.ne_granted h ht (Controller.verdict_eq_granted_iff.mpr (Or.inl hmem))
  · intro hnone
    refine congrArg Finset.card (Finset.Subset.antisymm l.occupied_subset_claimed fun e he => ?_)
    obtain ⟨t, ht, rfl⟩ := h.mem_claimed_iff.mp he
    rw [Controller.mem_occupied_iff, h.isOccupied_iff]
    cases hp : l.place t with
    | waiting => exact absurd hp (hnone t)
    | holding => exact ⟨t, hp, rfl⟩
    | nowhere => exact absurd hp ht

/-- Who is left waiting is left by the limit. -/
theorem Sound.isFull_of_isSettled (h : l.Sound) (hsettled : l.IsSettled)
    (ht : l.place t = .waiting) : l.controller.IsFull := by
  rw [← Controller.hasRoom_eq_false_iff, ← Bool.not_eq_true]
  intro hroom
  obtain ⟨u, hu, hgranted⟩ := h.exists_granted hroom ht false
  exact hsettled.ne_granted h hu hgranted

/-- **The number of occupied entries in the end.** -/
theorem Admits.numEntries_eq (h : l.Admits l') (hl : l.Sound) (hsettled : l'.IsSettled) :
    l'.controller.numEntries =
      l.controller.capacity.filled l.controller.occupied.card l.claimed.card := by
  have hle := h.numEntries_le hl
  have hall := h.sound.numEntries_eq_card_claimed_iff hsettled
  have hclaimed := Finset.card_le_card l'.occupied_subset_claimed
  rw [Controller.card_occupied] at hclaimed ⊢
  rw [h.claimed_eq hl] at hall hclaimed
  by_cases hnone : ∀ t, l'.place t ≠ .waiting
  · -- Nobody is left, and so all claimed entries are occupied.
    have hcard := hall.mpr hnone
    cases hcap : l.controller.capacity with
    | unlimited => exact hcard
    | limited m =>
      have hceiling := h.ceiling m hcap
      simp only [Capacity.filled]
      omega
  · -- Somebody is left, so the limit is reached.
    obtain ⟨t, ht⟩ := not_forall_not.mp hnone
    obtain ⟨m, hcap, hfull⟩ := h.sound.isFull_of_isSettled hsettled ht
    rw [h.capacity] at hcap
    have hceiling := h.ceiling m hcap
    simp only [hcap, Capacity.filled]
    omega

theorem Admits.all_holding_iff (h : l.Admits l') (hl : l.Sound) (hsettled : l'.IsSettled) :
    (∀ t, l.place t = .waiting → l'.place t = .holding) ↔
      l'.controller.numEntries = l.claimed.card := by
  rw [← h.claimed_eq hl, h.sound.numEntries_eq_card_claimed_iff hsettled]
  constructor
  · intro hin t ht
    cases hp : l.place t with
    | waiting => exact Place.noConfusion ((hin t hp).symm.trans ht)
    | holding => exact Place.noConfusion ((h.holding t hp).symm.trans ht)
    | nowhere => exact Place.noConfusion (((h.nowhere_iff t).mpr hp).symm.trans ht)
  · intro hnone t ht
    exact (h.waiting_or_holding ht).resolve_left (hnone t)

/-- From everywhere there is an order that comes to its end. -/
theorem Sound.exists_settling (h : l.Sound) :
    ∃ order, l.AllowsAll order ∧ (∀ tx ∈ order, tx.Looks) ∧ (l.applyAll order).IsSettled := by
  induction hload : l.load using Nat.strong_induction_on generalizing l with
  | _ n ih =>
    subst hload
    by_cases hsettled : l.IsSettled
    · exact ⟨[], trivial, by simp, hsettled⟩
    · obtain ⟨t, hmem, ht, hruling⟩ : ∃ t ∈ l.tickets, l.place t = .waiting ∧
          l.controller.ruling? (.evaluate t false) ≠ none := by
        simpa only [IsSettled, not_forall, exists_prop] using hsettled
      rcases l.apply_evaluate_cases t with ⟨hgranted, -⟩ | ⟨hnone, -⟩
      · have hmove : l.move? (.evaluate t false) = some (t, .holding) := by
          simp only [move?, hgranted]
        have hless := load_apply_lt hmem rfl hmove (by simp [ht, Place.weight])
        obtain ⟨order, hallow, hlooks, hend⟩ := ih _ hless (h.evaluate ht false) rfl
        refine ⟨.evaluate t false :: order, ⟨ht, hallow⟩, ?_, hend⟩
        exact List.forall_mem_cons.mpr ⟨⟨t, rfl⟩, hlooks⟩
      · exact absurd hnone hruling

end Ledger

namespace Session

variable {s : Session} {l : Ledger}

/-- The entries for which a call waits. -/
def wanted (s : Session) : Finset Entry :=
  ((s.waits.toList.filter Wait.isPending).map fun w => w.ticket.entry).toFinset

/-- The entries that somebody holds or waits for. -/
def claimed (s : Session) : Finset Entry := s.controller.occupied ∪ s.wanted

/-- No call that waits is cancelled. -/
def NoneCancelled (s : Session) : Prop :=
  ∀ w ∈ s.waits, w.phase = .pending → s.isCancelled w = false

instance (s : Session) : Decidable s.NoneCancelled :=
  inferInstanceAs (Decidable (∀ w ∈ s.waits, _))

/-! ## Sessions

The calls of a session can be evaluated in any order and any number of times. As long as none of
them is cancelled, this is a sequence of evaluations as above. -/

theorem claimed_eq (hl : l.Accounts s) : l.claimed = s.claimed := by
  have hpending : ∀ w ∈ s.waits.toList, decide (l.place w.ticket = .waiting) = w.isPending := by
    intro w hw
    obtain ⟨i, hi⟩ := Array.getElem?_of_mem (Array.mem_toList_iff.mp hw)
    exact decide_eq_decide.mpr (hl.place_eq_waiting_iff hi)
  have hfilter : s.waits.toList.filter (fun w => decide (l.place w.ticket = .waiting)) =
      s.waits.toList.filter Wait.isPending := List.filter_congr hpending
  rw [Ledger.claimed, Ledger.wanted, hl.controller, hl.tickets, List.filter_map, List.map_map]
  simp only [Function.comp_def, hfilter]
  rfl

theorem NoneCancelled.evaluate (h : s.NoneCancelled) (hs : s.Orderly) (id : Nat) :
    (s.evaluate id).1.NoneCancelled := by
  intro w hw hpending
  obtain ⟨i, hi⟩ := Array.getElem?_of_mem hw
  have hfollows := (turns_evaluate s id).follows hs
  obtain ⟨v, hv, hbecomes⟩ := hfollows.exists_before hi
  obtain rfl := hbecomes.eq_of_pending hpending
  have hbefore := h w (Array.mem_of_getElem? hv) hpending
  rwa [isCancelled, isTokenCancelled, now, hfollows.cancelledTokens, clock_evaluate]

theorem replays_evaluate (h : s.NoneCancelled) (id : Nat) :
    s.Replays Transaction.Looks (s.evaluate id).1 (s.evaluate id).2 := by
  unfold evaluate
  cases hw : s.waits[id]? with
  | none => exact .refl s
  | some w =>
    dsimp only
    split
    case isTrue hpending =>
      have hphase := Wait.isPending_iff.mp hpending
      rw [h w (Array.mem_of_getElem? hw) hphase]
      exact replays_conclude hw hphase ⟨w.ticket, rfl⟩
    case isFalse => exact .refl s

theorem replays_evaluateAll (h : s.NoneCancelled) (hs : s.Orderly) (ids : List Nat) :
    s.Replays Transaction.Looks (s.evaluateAll ids).1 (s.evaluateAll ids).2 := by
  induction ids generalizing s with
  | nil => exact .refl s
  | cons id rest ih =>
    have hone := replays_evaluate h id
    exact hone.trans (ih (h.evaluate hs id) (hone.orderly hs))

theorem AtRest.isSettled (hrest : s.AtRest) (hl : l.Accounts s) : l.IsSettled := by
  intro t _ ht
  obtain ⟨w, hw, rfl⟩ := hl.exists_wait (t := t) (by simp [ht])
  have hpending := (hl.place_eq_waiting_iff hw).mp ht
  have hrefuses := (hrest.refuses hl hw hpending).2
  rw [← hl.controller] at hrefuses
  simp only [Controller.ruling?, Controller.verdict_of_refuses hrefuses]
  rfl

/-! ## Any order comes to rest

Each round in which all are looked at settles somebody, or is the last one that counts. -/

theorem evaluateAll_append (s : Session) (ids later : List Nat) :
    (s.evaluateAll (ids ++ later)).1 = ((s.evaluateAll ids).1.evaluateAll later).1 := by
  induction ids generalizing s with
  | nil => rfl
  | cons id rest ih => exact ih (s.evaluate id).1

theorem atRest_evaluateAll_flatten (hs : s.Orderly) {rounds : List (List Nat)}
    (hall : ∀ round ∈ rounds, ∀ i ∈ s.pendingIds, i ∈ round)
    (hmany : s.pendingIds.length < rounds.length) : (s.evaluateAll rounds.flatten).1.AtRest := by
  induction rounds generalizing s with
  | nil => exact absurd hmany (Nat.not_lt_zero _)
  | cons round rest ih =>
    obtain ⟨hround, hrest⟩ := List.forall_mem_cons.mp hall
    rw [List.flatten_cons, evaluateAll_append]
    by_cases hquiet : (s.evaluateAll round).2 = []
    · obtain ⟨hsame, hstays⟩ := evaluateAll_of_no_event hquiet
      have hatRest : s.AtRest := fun i w hw hpending =>
        hstays i (hround i (mem_pendingIds_iff.mpr ⟨w, hw, hpending⟩)) w hw hpending
      rw [hsame, hatRest.evaluateAll_eq]
      exact hatRest
    · have hturns := turns_evaluateAll s round
      have hcount := length_pendingIds_evaluateAll hs round
      have hpos := List.length_pos_iff.mpr hquiet
      refine ih (hturns.orderly hs) (fun later hlater i hi => hrest later hlater i ?_) ?_
      · obtain ⟨w, hw, hpending⟩ := mem_pendingIds_iff.mp hi
        obtain ⟨v, hv, hbecomes⟩ := (hturns.follows hs).exists_before hw
        obtain rfl := hbecomes.eq_of_pending hpending
        exact mem_pendingIds_iff.mpr ⟨w, hv, hpending⟩
      · rw [List.length_cons] at hmany
        omega

/-! ## The outcome -/

/-- All calls that wait in `s` are let in on the way to `s'`. -/
def AllLetIn (s s' : Session) : Prop :=
  ∀ (i : Nat) (w : Wait), s.waits[i]? = some w → w.phase = .pending →
    ∃ w', s'.waits[i]? = some w' ∧ w'.phase = .admitted true none

/-- Where the call is in the end is where its ticket is. -/
theorem phase_of_evaluateAll (hl : l.Accounts s) {ids : List Nat} {l' : Ledger}
    (hl' : l'.Accounts (s.evaluateAll ids).1) {i : Nat} {w : Wait} (hw : s.waits[i]? = some w)
    (hpending : w.phase = .pending) :
    ∃ w', (s.evaluateAll ids).1.waits[i]? = some w' ∧
      (l'.place w.ticket = .waiting → w'.phase = .pending) ∧
      (l'.place w.ticket = .holding ↔ w'.phase = .admitted true none) := by
  obtain ⟨w', hw', hbecomes⟩ := ((turns_evaluateAll s ids).follows ⟨l, hl⟩).waits i w hw
  have hwait := hl'.place_eq_waiting_iff hw'
  have hfits := hl'.fits i w' hw'
  rw [hbecomes.ticket_eq] at hwait hfits
  refine ⟨w', hw', hwait.mp, ?_, fun hphase => ?_⟩
  · intro hholding
    rw [hholding] at hfits hwait
    rcases hbecomes with rfl | ⟨-, o, rfl⟩
    · exact absurd (hwait.mpr hpending) (by decide)
    · cases o with
      | admitted => rfl
      | cancelled => cases hfits
  · rw [hphase] at hfits
    exact hfits

theorem allLetIn_iff (hl : l.Accounts s) {ids : List Nat} {l' : Ledger}
    (hl' : l'.Accounts (s.evaluateAll ids).1) :
    s.AllLetIn (s.evaluateAll ids).1 ↔ ∀ t, l.place t = .waiting → l'.place t = .holding := by
  constructor
  · intro hin t ht
    obtain ⟨w, hw, rfl⟩ := hl.exists_wait (t := t) (by simp [ht])
    have hpending := (hl.place_eq_waiting_iff hw).mp ht
    obtain ⟨w', hw', -, hholds⟩ := phase_of_evaluateAll hl hl' hw hpending
    obtain ⟨v, hv, hphase⟩ := hin _ w hw hpending
    obtain rfl := Option.some.inj (hw'.symm.trans hv)
    exact hholds.mpr hphase
  · intro hin i w hw hpending
    obtain ⟨w', hw', -, hholds⟩ := phase_of_evaluateAll hl hl' hw hpending
    exact ⟨w', hw', hholds.mp (hin w.ticket ((hl.place_eq_waiting_iff hw).mpr hpending))⟩

end Session

/-- **Contention has one outcome.** Let the account be any that callers can cause, and let tickets
that wait be evaluated in any order and as often as one likes, none of them cancelled. Then each of
them goes on waiting or is let in; the evaluations can always be gone on with until none would let
anybody in; and once this is so, the number of occupied entries is told by the capacity, the
number of entries that were occupied at first, and the number of those that were claimed; and
everybody was let in exactly if it is the latter number. In every run of a session this goes for the
calls that wait after a request, if none of them is cancelled, and for evaluations of any calls in
any order; and more rounds than calls that wait, in each of which all of these are evaluated, leave
the session at rest. -/
theorem contention_has_one_outcome (capacity : Capacity) (linger : Span) :
    (∀ txs, (Ledger.new capacity linger).AllowsAll txs →
      let l := (Ledger.new capacity linger).applyAll txs
      ∀ order, l.AllowsAll order → (∀ tx ∈ order, tx.Looks) →
        let l' := l.applyAll order
        (∀ t, l.place t = .waiting → l'.place t = .waiting ∨ l'.place t = .holding) ∧
        (∃ more, l'.AllowsAll more ∧ (∀ tx ∈ more, tx.Looks) ∧ (l'.applyAll more).IsSettled) ∧
        (l'.IsSettled →
          l'.controller.numEntries =
              l.controller.capacity.filled l.controller.occupied.card l.claimed.card ∧
            ((∀ t, l.place t = .waiting → l'.place t = .holding) ↔
              l'.controller.numEntries = l.claimed.card))) ∧
    ∀ steps what,
      let s := (((Session.new capacity linger).run steps).1.perform what).1
      s.NoneCancelled →
      (∀ ids,
        let s' := (s.evaluateAll ids).1
        (∀ (i : Nat) (w : Wait), s.waits[i]? = some w → w.phase = .pending →
          ∃ w', s'.waits[i]? = some w' ∧
            (w'.phase = .pending ∨ w'.phase = .admitted true none)) ∧
        (s'.AtRest →
          s'.controller.numEntries =
              s.controller.capacity.filled s.controller.occupied.card s.claimed.card ∧
            (s.AllLetIn s' ↔ s'.controller.numEntries = s.claimed.card))) ∧
      ∀ rounds : List (List Nat), (∀ round ∈ rounds, ∀ i ∈ s.pendingIds, i ∈ round) →
        s.pendingIds.length < rounds.length → (s.evaluateAll rounds.flatten).1.AtRest := by
  refine ⟨fun txs hallow => ?_, fun steps what => ?_⟩
  · intro l order horder hlooks l'
    have hl : l.Sound := (Ledger.Sound.new capacity linger).applyAll hallow
    have hadmits := Ledger.Admits.applyAll hl horder hlooks
    refine ⟨fun t ht => hadmits.waiting_or_holding ht, hadmits.sound.exists_settling, ?_⟩
    exact fun hend => ⟨hadmits.numEntries_eq hl hend, hadmits.all_holding_iff hl hend⟩
  · intro s hnone
    have hrun := (Session.orderly_new capacity linger).run steps
    obtain ⟨l, hl⟩ : s.Orderly := (Session.replays_perform _ what).orderly hrun
    refine ⟨fun ids => ?_, fun rounds hall hmany => ?_⟩
    · intro s'
      obtain ⟨order, hlooks, hallow, hl', -⟩ := Session.replays_evaluateAll hnone ⟨l, hl⟩ ids l hl
      have hadmits := Ledger.Admits.applyAll hl.sound hallow hlooks
      refine ⟨fun i w hw hpending => ?_, fun hrest => ?_⟩
      · obtain ⟨w', hw', hwaits, hholds⟩ := Session.phase_of_evaluateAll hl hl' hw hpending
        have hbefore := (hl.place_eq_waiting_iff hw).mpr hpending
        exact ⟨w', hw', (hadmits.waiting_or_holding hbefore).imp hwaits hholds.mp⟩
      · have hend := hrest.isSettled hl'
        have hcount := hadmits.numEntries_eq hl.sound hend
        have hall := hadmits.all_holding_iff hl.sound hend
        rw [hl'.controller, Session.claimed_eq hl] at hcount hall
        rw [hl.controller] at hcount
        exact ⟨hcount, (Session.allLetIn_iff hl hl').trans hall⟩
    · exact Session.atRest_evaluateAll_flatten ⟨l, hl⟩ hall hmany

/-- Two slots, of which one is taken, and three callers for two more entries. In either order two
entries are occupied in the end; but the order decides whether two callers get in or one. -/
theorem contention_has_one_outcome_two_orders :
    let a : Ticket := ⟨0, ⟨"udp", "", "a"⟩, "x", .standard⟩
    let b : Ticket := ⟨1, ⟨"udp", "", "b"⟩, "x", .standard⟩
    let b' : Ticket := ⟨2, ⟨"udp", "", "b"⟩, "x", .standard⟩
    let d : Ticket := ⟨3, ⟨"udp", "", "d"⟩, "x", .standard⟩
    let txs := [.register a, .evaluate a false, .register b, .register b', .register d,
      .setCapacity (.limited 2)]
    let l := (Ledger.new (.limited 1) .zero).applyAll txs
    let ascending := [.evaluate b false, .evaluate b' false, .evaluate d false]
    let descending := [.evaluate d false, .evaluate b' false, .evaluate b false]
    let steps := [.wait a.entry "x" .standard "k" none, .wait b.entry "x" .standard "k" none,
      .wait b.entry "x" .standard "k" none, .wait d.entry "x" .standard "k" none]
    let s := (((Session.new (.limited 1) .zero).run steps).1.perform (.setCapacity (.limited 2))).1
    (l.controller.occupied.card, l.claimed.card) = (1, 3) ∧
      ((l.applyAll ascending).controller.numHolders, (l.applyAll ascending).controller.numEntries) =
        (3, 2) ∧
      ((l.applyAll descending).controller.numHolders,
        (l.applyAll descending).controller.numEntries) = (2, 2) ∧
      (s.evaluateAll (List.replicate 4 [3, 2, 1]).flatten).1.controller.numEntries = 2 := by
  intro a b b' d txs l ascending descending steps s
  have htxs : (Ledger.new (.limited 1) .zero).AllowsAll txs := by decide_cbv
  have hcards : (l.controller.occupied.card, l.claimed.card) = (1, 3) := by decide_cbv
  obtain ⟨hledger, hsession⟩ := contention_has_one_outcome (.limited 1) .zero
  obtain ⟨-, -, hup⟩ := hledger txs htxs ascending (by decide_cbv)
    (by simp [ascending, Transaction.Looks])
  obtain ⟨-, -, hdown⟩ := hledger txs htxs descending (by decide_cbv)
    (by simp [descending, Transaction.Looks])
  have hfacts : s.NoneCancelled ∧ s.pendingIds = [1, 2, 3] ∧
      s.controller.capacity.filled s.controller.occupied.card s.claimed.card = 2 := by
    subst s steps d b' b a
    decide_cbv
  have hs := hsession steps (.setCapacity (.limited 2))
  have hsame : (((Session.new (.limited 1) .zero).run steps).1.perform
    (.setCapacity (.limited 2))).1 = s := rfl
  rw [hsame] at hs
  clear_value s
  obtain ⟨hnone, hpending, hfilled⟩ := hfacts
  obtain ⟨horders, hrounds⟩ := hs hnone
  have hrest := hrounds (List.replicate 4 [3, 2, 1]) (by simp [hpending]) (by simp [hpending])
  refine ⟨hcards, Prod.ext (by decide_cbv) ?_, Prod.ext (by decide_cbv) ?_, ?_⟩
  · exact (hup (by decide_cbv)).1.trans (by decide_cbv)
  · exact (hdown (by decide_cbv)).1.trans (by decide_cbv)
  · exact ((horders _).2 hrest).1.trans hfilled

end Admission
