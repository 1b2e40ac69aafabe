import Admission.Proofs.Balance
import Admission.Proofs.Cancellation
import Mathlib.Tactic.Ring

/-!
# Wake-ups die out

A commit wakes everybody who waits, and whoever is woken is looked at again, in an order that nobody
promises. So the number of those who are woken goes up and down, and it could seem that transactions
which go on waiting keep waking each other. They do not:

> who goes on waiting wakes nobody, and who wakes the others does not wait any more.

So one counts, beside those who are due, for each who waits all the others, whom it will wake when
it ends (`Store.load`). This number falls with every look. It is counted in any store, whatever its
state is and whatever its transactions do; the counter and the session are stores of this kind, and
their own looks are looks at the store.
-/

set_option autoImplicit false

namespace Admission

/-! ## Looks, one after another

`Look a i n b` says that in `a` the one with the number `i` is due, and that a look at it leads to
`b`; `n` is one if it ends by that, and zero if it goes on waiting. -/

section

variable {α β : Type} (Look : α → Nat → Nat → α → Prop)

/-- Looks in any order, and how many end by them. -/
inductive Looks : α → List Nat → Nat → α → Prop
  | refl (a : α) : Looks a [] 0 a
  | cons {a b c : α} {i n ended : Nat} {order : List Nat} (h : Look a i n b)
      (hrest : Looks b order ended c) : Looks a (i :: order) (n + ended) c

/-- The wake-ups die out, in whatever order those who are due are looked at. -/
structure DiesOut (numLive : α → Nat) (a : α) : Prop where
  /-- Who ends is not there any more, and nobody else is lost. -/
  ended_add {order : List Nat} {ended : Nat} {b : α} (h : Looks Look a order ended b) :
    ended + numLive b = numLive a
  length_le {order : List Nat} {ended : Nat} {b : α} (h : Looks Look a order ended b) :
    order.length ≤ numLive a * (numLive a + 1) / 2
  /-- However one has begun, one comes to where nobody is due. -/
  exists_quiet {order : List Nat} {ended : Nat} {b : α} (h : Looks Look a order ended b) :
    ∃ more later c, Looks Look b more later c ∧ ∀ i n d, ¬ Look c i n d

variable {Look} {a b c : α} {order more : List Nat} {ended later : Nat}

namespace Looks

theorem single {i n : Nat} (h : Look a i n b) : Looks Look a [i] n b := .cons h (.refl b)

theorem trans (h : Looks Look a order ended b) (h' : Looks Look b more later c) :
    Looks Look a (order ++ more) (ended + later) c := by
  induction h with
  | refl a => rwa [Nat.zero_add]
  | cons hlook _ ih =>
    rw [Nat.add_assoc]
    exact .cons hlook (ih h')

end Looks

/-- What is known of the looks in a system: each of them takes something from its load, and the load
is not more than the number of those who wait allows. -/
structure Loaded (Look : α → Nat → Nat → α → Prop) (numLive load : α → Nat) (Holds : α → Prop) :
    Prop where
  load_le {a : α} (ha : Holds a) : load a ≤ numLive a * (numLive a + 1)
  look {a b : α} {i n : Nat} (ha : Holds a) (h : Look a i n b) :
    Holds b ∧ n + numLive b = numLive a ∧ load b + 2 ≤ load a

namespace Loaded

variable {numLive load : α → Nat} {Holds : α → Prop}

theorem looks (hloaded : Loaded Look numLive load Holds) (ha : Holds a)
    (h : Looks Look a order ended b) :
    Holds b ∧ ended + numLive b = numLive a ∧ load b + 2 * order.length ≤ load a := by
  induction h with
  | refl a => exact ⟨ha, Nat.zero_add _, Nat.le_refl _⟩
  | cons hlook _ ih =>
    obtain ⟨hb, hone, hless⟩ := hloaded.look ha hlook
    obtain ⟨hc, hlater, hrest⟩ := ih hb
    rw [List.length_cons]
    exact ⟨hc, by omega, by omega⟩

/-- Those who are due are looked at, as long as there are any. -/
theorem exists_quiet (hloaded : Loaded Look numLive load Holds) (ha : Holds a) :
    ∃ order ended b, Looks Look a order ended b ∧ ∀ i n c, ¬ Look b i n c := by
  induction hsize : load a using Nat.strong_induction_on generalizing a with
  | _ size ih =>
    by_cases hquiet : ∀ i n c, ¬ Look a i n c
    · exact ⟨[], 0, a, .refl a, hquiet⟩
    · simp only [not_forall, not_not] at hquiet
      obtain ⟨i, n, b, hlook⟩ := hquiet
      obtain ⟨hb, -, hless⟩ := hloaded.look ha hlook
      obtain ⟨order, ended, c, hlooks, hend⟩ := ih (load b) (by omega) hb rfl
      exact ⟨i :: order, n + ended, c, .cons hlook hlooks, hend⟩

theorem diesOut (hloaded : Loaded Look numLive load Holds) (ha : Holds a) :
    DiesOut Look numLive a where
  ended_add h := (hloaded.looks ha h).2.1
  length_le h := by
    have hlooks := (hloaded.looks ha h).2.2
    have hle := hloaded.load_le ha
    omega
  exists_quiet h := hloaded.exists_quiet (hloaded.looks ha h).1

/-- What is looked at as part of another system dies out with it. -/
theorem of_image {Look' : β → Nat → Nat → β → Prop} {numLive' : β → Nat} {Holds' : β → Prop}
    (hloaded : Loaded Look numLive load Holds) (f : β → α)
    (hlive : ∀ a, numLive (f a) = numLive' a)
    (hlook : ∀ {a b i n}, Holds' a → Look' a i n b → Holds' b ∧ Look (f a) i n (f b))
    (hholds : ∀ {a}, Holds' a → Holds (f a)) :
    Loaded Look' numLive' (fun a => load (f a)) Holds' where
  load_le ha := by
    rw [← hlive]
    exact hloaded.load_le (hholds ha)
  look ha h := by
    obtain ⟨hb, hthere⟩ := hlook ha h
    rw [← hlive, ← hlive]
    exact ⟨hb, (hloaded.look (hholds ha) hthere).2⟩

end Loaded

end

/-! ## Stores -/

namespace Store

/-- What comes of a transaction when it is tried. -/
inductive Attempt (σ : Type) where
  /-- It writes the state and ends. All who wait are woken. -/
  | commit (state : σ)
  /-- It ends, and wakes nobody. -/
  | observe
  | retry

/-- A transaction that may have to wait. -/
structure Blocking (σ : Type) where
  /-- What comes of it in a state, with its token cancelled or not. -/
  attempt : σ → Bool → Attempt σ
  hasToken : Bool
  /-- A token that is cancelled wakes it, and then it must not go on waiting. -/
  attempt_ne_retry : hasToken = true → ∀ state, attempt state true ≠ .retry

structure Waiter (σ : Type) where
  transaction : Blocking σ
  /-- Has it not ended? -/
  live : Bool
  woken : Bool
  cancelled : Bool

namespace Waiter

variable {σ : Type}

/-- Is it going to be looked at? -/
def isDue (w : Waiter σ) : Bool := w.live && (w.woken || (w.cancelled && w.transaction.hasToken))

def asleep (w : Waiter σ) : Waiter σ := { w with woken := false }

def ended (w : Waiter σ) : Waiter σ := { w with live := false, woken := false }

def wake (w : Waiter σ) : Waiter σ := { w with woken := true }

end Waiter

end Store

/-- A state and those who wait for it, each at the place of its number. -/
structure Store (σ : Type) where
  state : σ
  waiters : List (Store.Waiter σ)

namespace Store

variable {σ : Type} {st st' : Store σ} {i n : Nat} {w : Waiter σ}

/-- Looks at a waiter. The number is one if it ends by that, and zero if it goes on waiting. -/
def evaluate (st : Store σ) (i : Nat) (w : Waiter σ) : Store σ × Nat :=
  match w.transaction.attempt st.state w.cancelled with
  | .commit state => (⟨state, (st.waiters.modify i Waiter.ended).map Waiter.wake⟩, 1)
  | .observe => (⟨st.state, st.waiters.modify i Waiter.ended⟩, 1)
  | .retry => (⟨st.state, st.waiters.modify i Waiter.asleep⟩, 0)

/-- A look at a waiter who is due. -/
def Look (st : Store σ) (i n : Nat) (st' : Store σ) : Prop :=
  ∃ w, st.waiters[i]? = some w ∧ w.isDue = true ∧ st.evaluate i w = (st', n)

def numLive (st : Store σ) : Nat := st.waiters.countP Waiter.live

def numDue (st : Store σ) : Nat := st.waiters.countP Waiter.isDue

/-- Twice those who are due, and twice the pairs of those who wait. -/
def load (st : Store σ) : Nat := 2 * st.numDue + st.numLive * (st.numLive - 1)

theorem numDue_le_numLive (st : Store σ) : st.numDue ≤ st.numLive :=
  List.countP_mono_left fun _ _ hdue => (Bool.and_eq_true_iff.mp hdue).1

theorem numDue_pos (hw : st.waiters[i]? = some w) (hdue : w.isDue = true) : 0 < st.numDue :=
  List.countP_pos_iff.mpr ⟨w, List.mem_of_getElem? hw, hdue⟩

theorem countP_live_wake (l : List (Waiter σ)) :
    (l.map Waiter.wake).countP Waiter.live = l.countP Waiter.live := by
  rw [List.countP_map]
  rfl

/-- Who was due and goes on waiting is not due any more: its token was not cancelled. -/
theorem isDue_asleep (hretry : w.transaction.attempt st.state w.cancelled = .retry) :
    w.asleep.isDue = false := by
  by_contra hdue
  simp only [Waiter.isDue, Waiter.asleep, Bool.false_or, Bool.not_eq_false,
    Bool.and_eq_true] at hdue
  obtain ⟨-, hcancelled, htoken⟩ := hdue
  rw [hcancelled] at hretry
  exact w.transaction.attempt_ne_retry htoken st.state hretry

/-- **A look ends the waiter, or leaves one less due.** -/
theorem evaluate_cases (hw : st.waiters[i]? = some w) (hdue : w.isDue = true) :
    ((st.evaluate i w).2 = 1 ∧ (st.evaluate i w).1.numLive + 1 = st.numLive) ∨
      ((st.evaluate i w).2 = 0 ∧ (st.evaluate i w).1.numLive = st.numLive ∧
        (st.evaluate i w).1.numDue + 1 = st.numDue) := by
  have hlive : w.live = true := (Bool.and_eq_true_iff.mp hdue).1
  have hended := Counter.countP_modify (p := Waiter.live) (f := Waiter.ended) hw
  rw [hlive] at hended
  unfold evaluate
  split
  · refine Or.inl ⟨rfl, ?_⟩
    rw [numLive, countP_live_wake]
    exact hended
  · exact Or.inl ⟨rfl, hended⟩
  · next hretry =>
    have hsame := Counter.countP_modify (p := Waiter.live) (f := Waiter.asleep) hw
    have hasleep := Counter.countP_modify (p := Waiter.isDue) (f := Waiter.asleep) hw
    rw [hdue, isDue_asleep hretry] at hasleep
    exact Or.inr ⟨rfl, Nat.add_right_cancel hsame, hasleep⟩

/-- With one more there are as many more pairs as there are others. -/
theorem pairs_succ (n : Nat) : (n + 1) * n = 2 * n + n * (n - 1) := by
  cases n with
  | zero => rfl
  | succ n =>
    rw [Nat.add_sub_cancel]
    ring

/-- **Every look takes from the load.** -/
theorem loaded : Loaded (Look (σ := σ)) numLive load fun _ => True where
  load_le {st} _ := by
    have hpairs := pairs_succ st.numLive
    have hdue := st.numDue_le_numLive
    rw [load, Nat.mul_comm st.numLive (st.numLive + 1), hpairs]
    omega
  look {st st' i n} _ h := by
    obtain ⟨w, hw, hdue, heq⟩ := h
    have hpos := numDue_pos hw hdue
    have hcases := evaluate_cases hw hdue
    simp only [heq] at hcases
    refine ⟨trivial, ?_⟩
    rcases hcases with ⟨rfl, hless⟩ | ⟨rfl, hsame, hless⟩
    · -- All the others may be due now. They were counted as the pairs of the one that ended.
      have hpairs := pairs_succ st'.numLive
      have hothers := st'.numDue_le_numLive
      rw [load, load, ← hless, Nat.add_sub_cancel, hpairs]
      omega
    · rw [load, load, hsame]
      omega

end Store

/-! ## The counter -/

namespace Counter

open Store

variable {c c' : Counter} {id n : Nat} {j : Job}

/-- A look at a job that is due. -/
def Look (c : Counter) (id n : Nat) (c' : Counter) : Prop :=
  ∃ j, c.jobs[id]? = some j ∧ j.isDue = true ∧ (c.evaluate id j).1 = c' ∧
    (c.evaluate id j).2.length = n

def Verdict.attempt : Verdict → Attempt Int64
  | .commit value _ => .commit value
  | .observe _ => .observe
  | .retry => .retry

theorem Verdict.attempt_eq_retry_iff {v : Verdict} : v.attempt = .retry ↔ v = .retry := by
  cases v <;> simp [attempt]

/-- What a job wants of the counter, as a transaction of a store. -/
def Goal.blocking (g : Goal) : Blocking Int64 where
  attempt value cancelled := (Job.verdict ⟨g, true, true, cancelled⟩ value).attempt
  hasToken := g.isCancellable
  attempt_ne_retry := by
    intro htoken value hretry
    have hverdict := Job.verdict_eq_retry_iff.mp (Verdict.attempt_eq_retry_iff.mp hretry)
    exact Bool.noConfusion (hverdict.2 htoken)

def Job.waiter (j : Job) : Waiter Int64 := ⟨j.goal.blocking, j.live, j.woken, j.cancelled⟩

/-- The counter as a store. -/
def store (c : Counter) : Store Int64 := ⟨c.value, c.jobs.toList.map Job.waiter⟩

theorem map_waiter_modify {f : Job → Job} {g : Waiter Int64 → Waiter Int64}
    (hf : ∀ j, (f j).waiter = g j.waiter) (jobs : Array Job) (id : Nat) :
    (jobs.modify id f).toList.map Job.waiter = (jobs.toList.map Job.waiter).modify id g := by
  refine List.ext_getElem? fun i => ?_
  simp only [Array.toList_modify, List.getElem?_map, List.getElem?_modify]
  by_cases hi : id = i
  · simp [hi, hf, Function.comp_def]
  · simp [hi]

/-- To look at a job is to look at the waiter that it is. -/
theorem evaluate_store (c : Counter) (id : Nat) (j : Job) :
    c.store.evaluate id j.waiter = ((c.evaluate id j).1.store, (c.evaluate id j).2.length) := by
  have hattempt : j.waiter.transaction.attempt c.value j.waiter.cancelled =
      (j.verdict c.value).attempt := rfl
  have hsleep := map_waiter_modify (f := fun j => { j with woken := false })
    (g := Waiter.asleep) (fun _ => rfl) c.jobs id
  have hretire := map_waiter_modify (f := fun j => { j with live := false })
    (g := fun w => { w with live := false }) (fun _ => rfl)
    (c.jobs.modify id fun j => { j with woken := false }) id
  rw [hsleep, List.modify_modify_eq] at hretire
  unfold Store.evaluate evaluate
  rw [show c.store.state = c.value from rfl, hattempt]
  cases j.verdict c.value with
  | commit value outcome =>
    have hwake : ∀ jobs : Array Job,
        (jobs.map fun j => { j with woken := true }).toList.map Job.waiter =
          (jobs.toList.map Job.waiter).map Waiter.wake := fun jobs => by
      simp only [Array.toList_map, List.map_map]
      rfl
    simp only [Verdict.attempt, store, retire, modify, wakeAll, hwake, hretire]
    rfl
  | observe outcome =>
    simp only [Verdict.attempt, store, retire, modify, hretire]
    rfl
  | retry =>
    simp only [Verdict.attempt, store, modify, hsleep]
    rfl

theorem Look.store (h : c.Look id n c') : c.store.Look id n c'.store := by
  obtain ⟨j, hj, hdue, rfl, rfl⟩ := h
  exact ⟨j.waiter, by simp [Counter.store, hj], hdue, c.evaluate_store id j⟩

theorem numLive_store (c : Counter) : c.store.numLive = c.numLive := by
  rw [Store.numLive, store, List.countP_map, numLive, ← List.countP_eq_length_filter]
  rfl

theorem loaded : Loaded Look numLive (fun c => c.store.load) fun _ => True :=
  Store.loaded.of_image store numLive_store (fun _ h => ⟨trivial, h.store⟩) fun _ => trivial

/-! ### The program's own order -/

theorem looks_consider (c : Counter) (id : Nat) :
    ∃ order, Looks Look c order (c.consider Job.isDue id).2.length (c.consider Job.isDue id).1 := by
  obtain ⟨j, hj, hdue, heq, -⟩ | ⟨-, heq, -⟩ := c.consider_due_cases id
  · rw [heq]
    exact ⟨[id], .single ⟨j, hj, hdue, rfl, rfl⟩⟩
  · rw [heq]
    exact ⟨[], .refl c⟩

theorem looks_pass (ids : List Nat) (c : Counter) :
    ∃ order, Looks Look c order (pass Job.isDue ids c).2.length (pass Job.isDue ids c).1 := by
  induction ids generalizing c with
  | nil => exact ⟨[], .refl c⟩
  | cons id rest ih =>
    obtain ⟨order, hfirst⟩ := c.looks_consider id
    obtain ⟨more, hlater⟩ := ih (c.consider Job.isDue id).1
    simp only [pass, List.length_append]
    exact ⟨order ++ more, hfirst.trans hlater⟩

theorem looks_passes (fuel : Nat) (c : Counter) :
    ∃ order, Looks Look c order (passes Job.isDue fuel c).2.length
      (passes Job.isDue fuel c).1 := by
  induction fuel generalizing c with
  | zero => exact ⟨[], .refl c⟩
  | succ fuel ih =>
    obtain ⟨order, hpass⟩ := looks_pass (List.range c.jobs.size) c
    simp only [passes]
    split
    case isTrue hended =>
      rw [List.isEmpty_iff.mp hended] at hpass
      exact ⟨order, hpass⟩
    case isFalse hended =>
      obtain ⟨more, hlater⟩ := ih (pass Job.isDue (List.range c.jobs.size) c).1
      rw [List.length_append]
      exact ⟨order ++ more, hpass.trans hlater⟩

theorem evaluations_looks {order : List Nat} {ended : Nat} (h : Looks Look c order ended c') :
    c'.evaluations = c.evaluations + order.length := by
  induction h with
  | refl c => rfl
  | cons hlook _ ih =>
    obtain ⟨j, -, -, rfl, -⟩ := hlook
    rw [ih, evaluations_evaluate, List.length_cons]
    omega

end Counter

/-! ## The session -/

/-- The transaction of a ticket that waits. If nobody waits its caller fails, and gives it up. -/
def Controller.admission (t : Ticket) : Store.Blocking Controller where
  attempt c cancelled :=
    match c.verdict t cancelled with
    | .granted | .withdrawn => .commit (c.apply (.evaluate t cancelled))
    | .orphaned => .commit (c.apply (.abandon t))
    | .blocked => .retry
  hasToken := true
  attempt_ne_retry := by
    intro _ c hretry
    split at hretry
    case h_4 hblocked => exact Bool.noConfusion (Controller.verdict_eq_blocked_iff.mp hblocked).1
    all_goals cases hretry

namespace Controller

variable {c : Controller} {t : Ticket} {cancelled : Bool}

theorem attempt_admission_of_settled
    (h : c.verdict t cancelled = .granted ∨ c.verdict t cancelled = .withdrawn) :
    (admission t).attempt c cancelled = .commit (c.apply (.evaluate t cancelled)) := by
  rcases h with h | h <;> simp only [admission, h]

theorem attempt_admission_of_blocked (h : c.verdict t cancelled = .blocked) :
    (admission t).attempt c cancelled = .retry := by
  simp only [admission, h]

end Controller

namespace Session

/-- A session, and which of its calls were woken. -/
structure Roused where
  session : Session
  woken : Nat → Bool

namespace Roused

variable {r r' : Roused} {i n : Nat} {w : Wait}

/-- An evaluation of a call that waits and is due. If it is settled all calls are woken, and if not
it goes to sleep. -/
def Look (r : Roused) (i n : Nat) (r' : Roused) : Prop :=
  ∃ w, r.session.waits[i]? = some w ∧ w.phase = .pending ∧
    (r.woken i = true ∨ r.session.isCancelled w = true) ∧
    r'.session = (r.session.evaluate i).1 ∧ n = (r.session.evaluate i).2.length ∧
    r'.woken = if n = 0 then fun k => r.woken k && k ≠ i else fun _ => true

def numWaiting (r : Roused) : Nat := r.session.pendingIds.length

def waiter (r : Roused) (i : Nat) (w : Wait) : Store.Waiter Controller :=
  ⟨Controller.admission w.ticket, w.isPending, r.woken i, r.session.isCancelled w⟩

/-- The controller as a store, with the calls that wait for it. -/
def store (r : Roused) : Store Controller :=
  ⟨r.session.controller, r.session.waits.toList.mapIdx r.waiter⟩

theorem store_state (r : Roused) : r.store.state = r.session.controller := rfl

theorem getElem?_store (r : Roused) (i : Nat) :
    r.store.waiters[i]? = r.session.waits[i]?.map (r.waiter i) := by
  simp [store]

theorem countP_range {α : Type} {q : α → Bool} {p : Nat → Bool} {l : List α}
    (h : ∀ i a, l[i]? = some a → p i = q a) : (List.range l.length).countP p = l.countP q := by
  induction l generalizing p with
  | nil => rfl
  | cons a l ih =>
    have hrest := ih (p := fun i => p (i + 1)) fun i a ha => h (i + 1) a ha
    rw [List.length_cons, List.range_succ_eq_map, List.countP_cons, List.countP_map,
      List.countP_cons, ← hrest, h 0 a rfl]
    rfl

theorem numLive_store (r : Roused) : r.store.numLive = r.numWaiting := by
  have hlength : r.store.waiters.length = r.session.waits.size := by simp [store]
  rw [numWaiting, pendingIds, ← List.countP_eq_length_filter, ← hlength]
  refine (countP_range fun i w hw => ?_).symm
  rw [getElem?_store] at hw
  obtain ⟨v, hv, rfl⟩ := Option.map_eq_some_iff.mp hw
  rw [hv]
  rfl

/-- A call that is settled does not wait any more, and all others are woken. -/
theorem store_setPhase {phase : Phase} (hphase : phase ≠ .pending) (c : Controller) (i : Nat) :
    store ⟨(r.session.withController c).setPhase i phase, fun _ => true⟩ =
      ⟨c, (r.store.waiters.modify i Store.Waiter.ended).map Store.Waiter.wake⟩ := by
  refine congrArg (Store.mk c) (List.ext_getElem? fun k => ?_)
  rw [List.getElem?_map, List.getElem?_modify, getElem?_store]
  simp only [setPhase, withController, List.getElem?_mapIdx, Array.getElem?_toList,
    Array.getElem?_modify]
  cases hw : r.session.waits[k]? with
  | none => simp
  | some w =>
    by_cases hi : i = k
    · simp [hi, waiter, Wait.isPending, hphase, Store.Waiter.ended, Store.Waiter.wake]
      rfl
    · simp [hi, waiter, Store.Waiter.wake]
      rfl

theorem store_asleep (r : Roused) (i : Nat) :
    store ⟨r.session, fun k => r.woken k && k ≠ i⟩ =
      ⟨r.session.controller, r.store.waiters.modify i Store.Waiter.asleep⟩ := by
  refine congrArg (Store.mk r.session.controller) (List.ext_getElem? fun k => ?_)
  rw [List.getElem?_modify, getElem?_store, List.getElem?_mapIdx, Array.getElem?_toList]
  cases hw : r.session.waits[k]? with
  | none => simp
  | some w =>
    by_cases hi : i = k
    · simp [hi, waiter, Store.Waiter.asleep]
    · simp [hi, Ne.symm hi, waiter]

/-- To evaluate a call is to look at the waiter that it is. -/
theorem Look.store (hs : r.session.Orderly) (h : r.Look i n r') :
    r'.session.Orderly ∧ r.store.Look i n r'.store := by
  obtain ⟨w, hw, hpending, hdue, hsession, hn, hwoken⟩ := h
  have horderly := (turns_evaluate r.session i).orderly hs
  obtain ⟨l, hl⟩ := hs
  have hid := hl.id_eq hw
  have hevaluate : r.session.evaluate i = r.session.conclude w (r.session.isCancelled w) := by
    simp only [evaluate, hw, Wait.isPending_iff.mpr hpending, if_true]
  have hdue' : (r.waiter i w).isDue = true := by
    simpa [waiter, Store.Waiter.isDue, Wait.isPending_iff.mpr hpending, Controller.admission]
      using hdue
  refine ⟨hsession ▸ horderly, r.waiter i w, by rw [getElem?_store, hw]; rfl, hdue', ?_⟩
  rcases r' with ⟨s', woken'⟩
  dsimp only at hsession hwoken
  subst hsession hwoken hn
  have hadmitted : Phase.admitted true none ≠ .pending := by simp
  have hwithdrawn : Phase.cancelled ≠ .pending := by simp
  simp only [Store.evaluate, waiter, Roused.store_state, hevaluate]
  cases hv : r.session.controller.verdict w.ticket (r.session.isCancelled w) with
  | granted =>
    simp only [Controller.attempt_admission_of_settled (Or.inl hv), conclude, hv, hid,
      List.length_singleton, one_ne_zero, if_false, store_setPhase hadmitted]
  | withdrawn =>
    simp only [Controller.attempt_admission_of_settled (Or.inr hv), conclude, hv, hid,
      List.length_singleton, one_ne_zero, if_false, store_setPhase hwithdrawn]
  | blocked =>
    simp only [Controller.attempt_admission_of_blocked hv, conclude_of_stays (Or.inl hv),
      List.length_nil, if_true, r.store_asleep i]
  | orphaned => exact absurd hv (verdict_ne_orphaned hl hw hpending _)

theorem loaded : Loaded Look numWaiting (fun r => r.store.load) fun r => r.session.Orderly :=
  Store.loaded.of_image store numLive_store Look.store fun _ => trivial

end Roused

end Session

end Admission
