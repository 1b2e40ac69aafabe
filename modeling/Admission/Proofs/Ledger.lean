import Admission.Proofs.Decision
import Admission.Proofs.Room
import Mathlib.Data.List.Nodup
import Mathlib.Logic.Function.Basic

/-!
# The ledger: a controller with an account of its tickets

A controller does not remember tickets that have left it, and it cannot tell a number that was
never handed out from one that is gone. To say that "each ticket is in one place" one has to keep
an account beside the controller: which tickets were ever handed out, and where each of them is.
That account is the `Ledger`. It is kept from the outside, by what the callers are told (a ticket is
let in when its evaluation says so), and never by looking into the controller's collections.

Not every sequence of transactions is one that callers can cause. A number is handed out once, only
a ticket that waits is evaluated, and nobody speaks of a ticket that does not exist
(`Ledger.Allows`). In which order callers take their turns is left open: `Ledger.AllowsAll` admits
every interleaving.

The main statement is `Ledger.Sound.applyAll`: under every interleaving the account is right, that
is, the waiting room seats exactly the tickets that wait and the entries are held by exactly those
that were let in and have not expired.
-/

set_option autoImplicit false

namespace Admission

/-- Where a ticket is. -/
inductive Place where
  /-- In the waiting room. -/
  | waiting
  /-- Among the holders of its entry. -/
  | holding
  /-- In neither: it was withdrawn, abandoned or has expired, or it was not handed out yet. -/
  | nowhere
deriving DecidableEq, Repr

/-- A controller with an account of its tickets. -/
structure Ledger where
  controller : Controller
  /-- The tickets that were ever handed out, in order. -/
  tickets : List Ticket
  place : Ticket → Place

namespace Ledger

/-- The ledger before the first request. -/
def new (capacity : Capacity) (linger : Span) : Ledger :=
  { controller := .new capacity linger, tickets := [], place := fun _ => .nowhere }

/-- May the transaction come next? A number is handed out once, only a ticket that waits is
evaluated, and nobody speaks of a ticket that was not handed out. -/
def Allows (l : Ledger) : Transaction → Prop
  | .register t => ∀ u ∈ l.tickets, u.id ≠ t.id
  | .evaluate t _ => l.place t = .waiting
  | .abandon t => t ∈ l.tickets
  | .expire t => t ∈ l.tickets
  | .setCapacity _ => True
  | .setPolicy _ => True

instance (l : Ledger) : (tx : Transaction) → Decidable (l.Allows tx)
  | .register t => inferInstanceAs (Decidable (∀ u ∈ l.tickets, u.id ≠ t.id))
  | .evaluate t _ => inferInstanceAs (Decidable (l.place t = .waiting))
  | .abandon t => inferInstanceAs (Decidable (t ∈ l.tickets))
  | .expire t => inferInstanceAs (Decidable (t ∈ l.tickets))
  | .setCapacity _ => inferInstanceAs (Decidable True)
  | .setPolicy _ => inferInstanceAs (Decidable True)

def ticketsAfter (l : Ledger) : Transaction → List Ticket
  | .register t => l.tickets ++ [t]
  | _ => l.tickets

/-- The ticket that a transaction moves, and where to. -/
def move? (l : Ledger) : Transaction → Option (Ticket × Place)
  | .register t => some (t, .waiting)
  | .evaluate t cancelled =>
    match l.controller.verdict t cancelled with
    | .granted => some (t, .holding)
    | .withdrawn => some (t, .nowhere)
    | .blocked => none
    | .orphaned => none
  | .abandon t => if l.place t = .waiting then some (t, .nowhere) else none
  | .expire t => if l.place t = .holding then some (t, .nowhere) else none
  | .setCapacity _ => none
  | .setPolicy _ => none

/-- The places of all tickets after one of them has moved. -/
def moved (place : Ticket → Place) : Option (Ticket × Place) → Ticket → Place
  | none => place
  | some (t, p) => Function.update place t p

def apply (l : Ledger) (tx : Transaction) : Ledger :=
  { controller := l.controller.apply tx
    tickets := l.ticketsAfter tx
    place := moved l.place (l.move? tx) }

def applyAll (l : Ledger) (txs : List Transaction) : Ledger := txs.foldl apply l

def AllowsAll (l : Ledger) : List Transaction → Prop
  | [] => True
  | tx :: rest => l.Allows tx ∧ (l.apply tx).AllowsAll rest

instance decidableAllowsAll (l : Ledger) : (txs : List Transaction) → Decidable (l.AllowsAll txs)
  | [] => inferInstanceAs (Decidable True)
  | tx :: rest =>
    have := decidableAllowsAll (l.apply tx) rest
    inferInstanceAs (Decidable (l.Allows tx ∧ (l.apply tx).AllowsAll rest))

/-- Does the transaction let the ticket in? -/
def LetsIn (l : Ledger) (tx : Transaction) (t : Ticket) : Prop :=
  ∃ r, l.controller.ruling? tx = some r ∧ r.ticket = t ∧ r.verdict = .granted

/-- Does the transaction end the ticket's wait? A ruling does, and so does its caller's going. -/
def EndsWait (l : Ledger) (tx : Transaction) (t : Ticket) : Prop :=
  (∃ r, l.controller.ruling? tx = some r ∧ r.ticket = t) ∨ tx = .abandon t

/-- The account is right: no number was handed out twice, and the controller's collections hold
exactly the tickets that are accounted for there. -/
structure Sound (l : Ledger) : Prop where
  nodup : (l.tickets.map Ticket.id).Nodup
  known : ∀ t, l.place t ≠ .nowhere → t ∈ l.tickets
  waiting : l.controller.waiting.Seats {t | l.place t = .waiting}
  holding : l.controller.occupancy.Indexes Ticket.entry {t | l.place t = .holding}

/-! ## Sequences of transactions -/

theorem controller_applyAll (l : Ledger) (txs : List Transaction) :
    (l.applyAll txs).controller = l.controller.applyAll txs := by
  induction txs generalizing l with
  | nil => rfl
  | cons tx rest ih => exact ih (l.apply tx)

theorem applyAll_cons (l : Ledger) (tx : Transaction) (rest : List Transaction) :
    l.applyAll (tx :: rest) = (l.apply tx).applyAll rest := rfl

theorem applyAll_append (l : Ledger) (txs rest : List Transaction) :
    l.applyAll (txs ++ rest) = (l.applyAll txs).applyAll rest :=
  List.foldl_append

theorem allowsAll_append {l : Ledger} {txs rest : List Transaction} :
    l.AllowsAll (txs ++ rest) ↔ l.AllowsAll txs ∧ (l.applyAll txs).AllowsAll rest := by
  induction txs generalizing l with
  | nil => simp [AllowsAll, applyAll]
  | cons tx tail ih => rw [List.cons_append, AllowsAll, AllowsAll, ih, and_assoc, applyAll_cons]

theorem apply_evaluate_of_stays {l : Ledger} {t : Ticket} {cancelled : Bool}
    (h : l.controller.verdict t cancelled = .blocked ∨
      l.controller.verdict t cancelled = .orphaned) : l.apply (.evaluate t cancelled) = l := by
  rcases h with hv | hv
  · simp only [apply, ticketsAfter, move?, hv, moved, Controller.apply_evaluate_of_blocked hv]
  · simp only [apply, ticketsAfter, move?, hv, moved, Controller.apply_evaluate_of_orphaned hv]

/-! ## Moving one ticket

A transaction moves one ticket at most. In the sets that the collections stand for, the ticket comes
to the place where it goes, and is taken from all others; where it has not been, that does
nothing. -/

theorem setOf_update_self (place : Ticket → Place) (t : Ticket) (p : Place) :
    {u | Function.update place t p u = p} = insert t {u | place u = p} := by
  ext u
  by_cases h : u = t
  · simp [h]
  · simp [h]

theorem mem_of_update_ne_nowhere {place : Ticket → Place} {ts : List Ticket} {t u : Ticket}
    {p : Place} (hknown : ∀ u, place u ≠ .nowhere → u ∈ ts) (ht : t ∈ ts)
    (hu : Function.update place t p u ≠ .nowhere) : u ∈ ts := by
  by_cases hut : u = t
  · exact hut ▸ ht
  · rw [Function.update_of_ne hut] at hu
    exact hknown u hu

theorem setOf_update_of_ne (place : Ticket → Place) (t : Ticket) {p q : Place} (hpq : p ≠ q) :
    {u | Function.update place t p u = q} = {u | place u = q} \ {t} := by
  ext u
  by_cases h : u = t
  · simp [h, hpq]
  · simp [h]

namespace Sound

variable {l : Ledger}

theorem new (capacity : Capacity) (linger : Span) : (Ledger.new capacity linger).Sound where
  nodup := List.nodup_nil
  known t h := absurd rfl h
  waiting := by simpa [Ledger.new, Controller.new] using WaitingRoom.Seats.empty
  holding := by simpa [Ledger.new, Controller.new] using Buckets.Indexes.empty Ticket.entry

theorem eq_of_id_eq (h : l.Sound) {t u : Ticket} (ht : t ∈ l.tickets) (hu : u ∈ l.tickets)
    (hid : u.id = t.id) : u = t :=
  List.inj_on_of_nodup_map h.nodup hu ht hid

/-- A place where tickets are knows nobody else by the number of a ticket that was handed out. -/
theorem eq_of_place (h : l.Sound) {t : Ticket} (ht : t ∈ l.tickets) {p : Place}
    (hp : p ≠ .nowhere) : ∀ u ∈ {u | l.place u = p}, u.id = t.id → u = t := by
  intro u hu hid
  refine h.eq_of_id_eq ht (h.known u ?_) hid
  rw [hu]
  exact hp

/-! ## Each transaction keeps the account right -/

theorem register (h : l.Sound) {t : Ticket} (hnew : ∀ u ∈ l.tickets, u.id ≠ t.id) :
    (l.apply (.register t)).Sound := by
  -- A ticket that was not handed out yet is nowhere, so the entries' holders need not change.
  have hplace : l.place t = .nowhere := by
    by_contra hp
    exact hnew t (h.known t hp) rfl
  refine ⟨?_, fun u hu => ?_, ?_, ?_⟩
  · simp only [apply, ticketsAfter, List.map_append, List.map_cons, List.map_nil]
    refine List.nodup_append.mpr ⟨h.nodup, List.nodup_singleton _, ?_⟩
    intro i hi j hj hij
    obtain ⟨u, hu, rfl⟩ := List.mem_map.mp hi
    exact hnew u hu (hij.trans (List.mem_singleton.mp hj))
  · have hlast : t ∈ l.tickets ++ [t] := List.mem_append_right _ (List.mem_singleton.mpr rfl)
    exact mem_of_update_ne_nowhere (fun v hv => List.mem_append_left _ (h.known v hv)) hlast hu
  · simp only [apply, move?, moved, Controller.apply, setOf_update_self]
    refine h.waiting.enter fun u hu hid => absurd hid (hnew u (h.known u ?_))
    rw [hu]
    decide
  · simp only [apply, move?, moved, Controller.apply]
    rw [setOf_update_of_ne _ _ (by decide), Set.sdiff_singleton_eq_self (by simp [hplace])]
    exact h.holding

theorem withdraw (h : l.Sound) {t : Ticket} (ht : l.place t = .waiting) :
    Sound ⟨l.controller.withdraw t, l.tickets, Function.update l.place t .nowhere⟩ := by
  have hmem : t ∈ l.tickets := h.known t (by simp [ht])
  refine ⟨h.nodup, fun u hu => mem_of_update_ne_nowhere h.known hmem hu, ?_, ?_⟩
  · rw [setOf_update_of_ne _ _ (by decide)]
    exact h.waiting.leave (h.eq_of_place hmem (by decide))
  · rw [setOf_update_of_ne _ _ (by decide), Set.sdiff_singleton_eq_self (by simp [ht])]
    exact h.holding

theorem grant (h : l.Sound) {t : Ticket} (ht : l.place t = .waiting) :
    Sound ⟨l.controller.grant t, l.tickets, Function.update l.place t .holding⟩ := by
  have hmem : t ∈ l.tickets := h.known t (by simp [ht])
  refine ⟨h.nodup, fun u hu => mem_of_update_ne_nowhere h.known hmem hu, ?_, ?_⟩
  · rw [setOf_update_of_ne _ _ (by decide)]
    exact h.waiting.leave (h.eq_of_place hmem (by decide))
  · rw [setOf_update_self]
    exact h.holding.add t

theorem evaluate (h : l.Sound) {t : Ticket} (ht : l.place t = .waiting) (cancelled : Bool) :
    (l.apply (.evaluate t cancelled)).Sound := by
  cases hv : l.controller.verdict t cancelled with
  | granted =>
    simp only [apply, ticketsAfter, move?, hv, Controller.apply_evaluate_of_granted hv]
    exact h.grant ht
  | withdrawn =>
    simp only [apply, ticketsAfter, move?, hv, Controller.apply_evaluate_of_withdrawn hv]
    exact h.withdraw ht
  | blocked => rwa [apply_evaluate_of_stays (Or.inl hv)]
  | orphaned => rwa [apply_evaluate_of_stays (Or.inr hv)]

theorem abandon (h : l.Sound) {t : Ticket} (hmem : t ∈ l.tickets) :
    (l.apply (.abandon t)).Sound := by
  simp only [apply, ticketsAfter, move?]
  by_cases ht : l.place t = .waiting
  · rw [if_pos ht]
    exact h.withdraw ht
  · -- The caller of a ticket that does not wait any longer: the room does not know the number.
    rw [if_neg ht]
    have hnot : t ∉ {u | l.place u = .waiting} := ht
    have hleave := h.waiting.leave (h.eq_of_place hmem (by decide))
    rw [Set.sdiff_singleton_eq_self hnot] at hleave
    exact ⟨h.nodup, h.known, hleave, h.holding⟩

theorem expire (h : l.Sound) {t : Ticket} (hmem : t ∈ l.tickets) :
    (l.apply (.expire t)).Sound := by
  have hremove := h.holding.remove (h.eq_of_place hmem (by decide))
  simp only [apply, ticketsAfter, move?]
  by_cases ht : l.place t = .holding
  · rw [if_pos ht]
    refine ⟨h.nodup, fun u hu => mem_of_update_ne_nowhere h.known hmem hu, ?_, ?_⟩
    · simp only [moved]
      rw [setOf_update_of_ne _ _ (by decide), Set.sdiff_singleton_eq_self (by simp [ht])]
      exact h.waiting
    · simp only [moved]
      rw [setOf_update_of_ne _ _ (by decide)]
      exact hremove
  · rw [if_neg ht]
    have hnot : t ∉ {u | l.place u = .holding} := ht
    rw [Set.sdiff_singleton_eq_self hnot] at hremove
    exact ⟨h.nodup, h.known, h.waiting, hremove⟩

theorem apply (h : l.Sound) {tx : Transaction} (hallow : l.Allows tx) : (l.apply tx).Sound := by
  cases tx with
  | register t => exact h.register hallow
  | evaluate t cancelled => exact h.evaluate hallow cancelled
  | abandon t => exact h.abandon hallow
  | expire t => exact h.expire hallow
  | setCapacity _ => exact ⟨h.nodup, h.known, h.waiting, h.holding⟩
  | setPolicy _ => exact ⟨h.nodup, h.known, h.waiting, h.holding⟩

/-- **The account is right after every interleaving.** -/
theorem applyAll (h : l.Sound) {txs : List Transaction} (hallow : l.AllowsAll txs) :
    (l.applyAll txs).Sound := by
  induction txs generalizing l with
  | nil => exact h
  | cons tx rest ih => exact ih (h.apply hallow.1) hallow.2

end Sound

/-! ## How long a ticket stays where it is

The places were defined by what moves a ticket. Read the other way round, that says when a ticket
comes to a place and when it leaves it. -/

/-- A ticket waits from its registration until a ruling on it or until its caller goes. -/
theorem place_apply_eq_waiting_iff (l : Ledger) (tx : Transaction) (t : Ticket) :
    (l.apply tx).place t = .waiting ↔
      tx = .register t ∨ (l.place t = .waiting ∧ ¬ l.EndsWait tx t) := by
  cases tx with
  | register u =>
    by_cases hut : t = u
    · simp [hut, Ledger.apply, move?, moved]
    · simp [hut, Ne.symm hut, Ledger.apply, move?, moved, EndsWait, Controller.ruling?]
  | evaluate u cancelled =>
    simp only [Ledger.apply, move?, EndsWait, Controller.ruling?]
    by_cases hut : t = u
    · subst hut
      cases l.controller.verdict t cancelled <;> simp [moved]
    · cases l.controller.verdict u cancelled <;> simp [moved, hut, Ne.symm hut]
  | abandon u =>
    simp only [Ledger.apply, move?, EndsWait, Controller.ruling?]
    by_cases hut : t = u
    · subst hut
      by_cases ht : l.place t = .waiting <;> simp [ht, moved]
    · by_cases hu : l.place u = .waiting <;> simp [hu, moved, hut, Ne.symm hut]
  | expire u =>
    simp only [Ledger.apply, move?, EndsWait, Controller.ruling?]
    by_cases hu : l.place u = .holding
    · by_cases hut : t = u
      · simp [hut, hu, moved]
      · simp [hu, moved, hut]
    · simp [hu, moved]
  | setCapacity c => simp [Ledger.apply, move?, moved, EndsWait, Controller.ruling?]
  | setPolicy p => simp [Ledger.apply, move?, moved, EndsWait, Controller.ruling?]

/-- A ticket holds its entry from the ruling that lets it in until it expires. -/
theorem Sound.place_apply_eq_holding_iff {l : Ledger} (h : l.Sound) {tx : Transaction}
    (hallow : l.Allows tx) (t : Ticket) :
    (l.apply tx).place t = .holding ↔
      l.LetsIn tx t ∨ (l.place t = .holding ∧ tx ≠ .expire t) := by
  cases tx with
  | register u =>
    by_cases hut : t = u
    · -- What is handed out now was not handed out before, so it did not hold an entry.
      have hout : l.place u ≠ .holding := by
        intro hu
        exact hallow u (h.known u (by simp [hu])) rfl
      simp [hut, hout, Ledger.apply, move?, moved, LetsIn, Controller.ruling?]
    · simp [hut, Ledger.apply, move?, moved, LetsIn, Controller.ruling?]
  | evaluate u cancelled =>
    have hwait : l.place u = .waiting := hallow
    simp only [Ledger.apply, move?, LetsIn, Controller.ruling?]
    by_cases hut : t = u
    · subst hut
      cases l.controller.verdict t cancelled <;> simp [moved, hwait]
    · cases l.controller.verdict u cancelled <;> simp [moved, hut, Ne.symm hut]
  | abandon u =>
    simp only [Ledger.apply, move?, LetsIn, Controller.ruling?]
    by_cases hu : l.place u = .waiting
    · by_cases hut : t = u
      · simp [hut, hu, moved]
      · simp [hu, moved, hut]
    · simp [hu, moved]
  | expire u =>
    simp only [Ledger.apply, move?, LetsIn, Controller.ruling?]
    by_cases hut : t = u
    · subst hut
      by_cases ht : l.place t = .holding <;> simp [ht, moved]
    · by_cases hu : l.place u = .holding <;> simp [hu, moved, hut, Ne.symm hut]
  | setCapacity c => simp [Ledger.apply, move?, moved, LetsIn, Controller.ruling?]
  | setPolicy p => simp [Ledger.apply, move?, moved, LetsIn, Controller.ruling?]

end Ledger

end Admission
