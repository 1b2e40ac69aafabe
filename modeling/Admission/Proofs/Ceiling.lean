import Admission.Proofs.Decision
import Admission.Proofs.Index
import Mathlib.Data.List.Induction
import Mathlib.Data.List.Infix

/-!
# The ceiling on occupied entries

Slots are counted by distinct entries, while tickets are let in one by one; a ticket that shares an
entry is let in without asking for room. The ceiling holds nevertheless, and without anybody being
thrown out for it:

> a transaction adds at most one entry, and only where there was room for it; and a ticket leaves
> its entry by its own expiry and by nothing else.

Everything here is said of transactions in any order whatever, whether callers can cause it or not.
When the limit is lowered below what is occupied, the entries stay, and their number can only go
down until it has come below the limit.
-/

set_option autoImplicit false

namespace Admission

/-- The capacity is limited to so many slots or fewer. -/
def Capacity.AtMost (k : Capacity) (m : Nat) : Prop := ∃ n, k = .limited n ∧ n.toNat ≤ m

theorem Capacity.hasRoom_eq_false_iff {k : Capacity} {occupied : Nat} :
    k.hasRoom occupied = false ↔ k.AtMost occupied := by
  cases k with
  | limited n => simp [hasRoom, AtMost]
  | unlimited => simp [hasRoom, AtMost]

instance (k : Capacity) (m : Nat) : Decidable (k.AtMost m) :=
  decidable_of_iff (k.hasRoom m = false) Capacity.hasRoom_eq_false_iff

namespace Buckets

variable {κ : Type} [Ord κ] [Std.TransOrd κ]

/-! ## How many keys an index has -/

theorem size_add_of_contains {b : Buckets κ} {key : κ} (h : b.contains key = true) (id : Nat) :
    (b.add key id).size = b.size :=
  Std.ExtTreeMap.size_alter_eq_self_of_mem (Std.ExtTreeMap.contains_iff_mem.mp h) rfl

theorem contains_add_iff [Std.LawfulEqOrd κ] [DecidableEq κ] (b : Buckets κ)
    (key k : κ) (id : Nat) :
    (b.add key id).contains k = true ↔ k = key ∨ b.contains k = true := by
  rw [Std.ExtTreeMap.contains_iff_mem, Std.ExtTreeMap.contains_iff_mem,
    Std.ExtTreeMap.mem_iff_isSome_getElem?, Std.ExtTreeMap.mem_iff_isSome_getElem?, getElem?_add]
  by_cases hk : key = k
  · simp [hk]
  · simp [hk, Ne.symm hk]

theorem size_add_le (b : Buckets κ) (key : κ) (id : Nat) : (b.add key id).size ≤ b.size + 1 :=
  Std.ExtTreeMap.size_alter_le_size

theorem size_remove_le (b : Buckets κ) (key : κ) (id : Nat) : (b.remove key id).size ≤ b.size := by
  cases hb : b[key]? with
  | none =>
    have hkey : key ∉ b := by simp [Std.ExtTreeMap.mem_iff_isSome_getElem?, hb]
    exact (Std.ExtTreeMap.size_alter_eq_self_of_not_mem hkey (by simp [hb])).le
  | some ids =>
    have hkey : key ∈ b := by simp [Std.ExtTreeMap.mem_iff_isSome_getElem?, hb]
    by_cases hlast : (ids.erase id).isEmpty = true
    · rw [remove, Std.ExtTreeMap.size_alter_eq_sub_one hkey (by simp [hb, hlast])]
      exact Nat.sub_le _ _
    · exact (Std.ExtTreeMap.size_alter_eq_self_of_mem hkey (by simp [hb, hlast])).le

theorem size_remove_lt {b : Buckets κ} {key : κ} {id : Nat} (h : key ∈ b)
    (hgone : key ∉ b.remove key id) : (b.remove key id).size < b.size := by
  have hnone : (b.remove key id)[key]? = none := Std.ExtTreeMap.getElem?_eq_none hgone
  rw [remove, Std.ExtTreeMap.getElem?_alter_self] at hnone
  rw [remove, Std.ExtTreeMap.size_alter_eq_sub_one h (by rw [hnone]; rfl)]
  have hpos : b.size ≠ 0 := fun hzero =>
    Std.ExtTreeMap.not_mem_empty (Std.ExtTreeMap.eq_empty_iff_size_eq_zero.mpr hzero ▸ h)
  omega

end Buckets

namespace Controller

variable {c : Controller}

/-- The limit is reached or exceeded. -/
def IsFull (c : Controller) : Prop := c.capacity.AtMost c.numEntries

theorem hasRoom_eq_false_iff : c.hasRoom = false ↔ c.IsFull := Capacity.hasRoom_eq_false_iff

/-! ## One transaction

Letting a ticket in is the only thing that can add an entry. If the ticket shares, its entry is
counted already; if it does not, there was room. -/

theorem numEntries_grant {t : Ticket} (h : c.isOccupied t.entry = true) :
    (c.grant t).numEntries = c.numEntries := Buckets.size_add_of_contains h t.id

theorem numEntries_expire_le (c : Controller) (t : Ticket) :
    (c.apply (.expire t)).numEntries ≤ c.numEntries := Buckets.size_remove_le _ _ _

theorem numEntries_expire_lt {t : Ticket} (h : c.isOccupied t.entry = true)
    (hfree : (c.apply (.expire t)).isOccupied t.entry = false) :
    (c.apply (.expire t)).numEntries < c.numEntries := by
  refine Buckets.size_remove_lt (Std.ExtTreeMap.contains_iff_mem.mp h) fun hmem => ?_
  have hocc := Std.ExtTreeMap.contains_iff_mem.mpr hmem
  rw [isOccupied, apply, expire, hocc] at hfree
  cases hfree

theorem numEntries_evaluate_le (c : Controller) (t : Ticket) (cancelled : Bool) :
    (c.apply (.evaluate t cancelled)).numEntries ≤ c.numEntries ∨
      (c.hasRoom = true ∧ (c.apply (.evaluate t cancelled)).numEntries ≤ c.numEntries + 1) := by
  cases hv : c.verdict t cancelled with
  | granted =>
    rw [apply_evaluate_of_granted hv]
    -- A granted ticket shares its entry, or there was room for another one.
    rcases verdict_eq_granted_iff.mp hv with hocc | ⟨hroom, -⟩
    · exact Or.inl (numEntries_grant hocc).le
    · exact Or.inr ⟨hroom, Buckets.size_add_le _ _ _⟩
  | withdrawn =>
    rw [apply_evaluate_of_withdrawn hv]
    exact Or.inl le_rfl
  | blocked =>
    rw [apply_evaluate_of_blocked hv]
    exact Or.inl le_rfl
  | orphaned =>
    rw [apply_evaluate_of_orphaned hv]
    exact Or.inl le_rfl

/-- A transaction adds no entry, or one for which there was room. -/
theorem numEntries_apply_le (c : Controller) (tx : Transaction) :
    (c.apply tx).numEntries ≤ c.numEntries ∨
      (c.hasRoom = true ∧ (c.apply tx).numEntries ≤ c.numEntries + 1) := by
  cases tx with
  | evaluate t cancelled => exact numEntries_evaluate_le c t cancelled
  | expire t => exact Or.inl (numEntries_expire_le c t)
  | register t => exact Or.inl le_rfl
  | abandon t => exact Or.inl le_rfl
  | setCapacity k => exact Or.inl le_rfl
  | setPolicy p => exact Or.inl le_rfl

/-- A change of the capacity leaves alone what the controller counts; all other transactions leave
the capacity alone. -/
theorem numEntries_apply_eq_or_capacity_apply_eq (c : Controller) (tx : Transaction) :
    (c.apply tx).numEntries = c.numEntries ∨ (c.apply tx).capacity = c.capacity := by
  cases tx with
  | evaluate t cancelled => exact Or.inr (capacity_apply_evaluate c t cancelled)
  | setCapacity k => exact Or.inl rfl
  | register t => exact Or.inl rfl
  | abandon t => exact Or.inl rfl
  | expire t => exact Or.inr rfl
  | setPolicy p => exact Or.inl rfl

theorem numEntries_apply_le_max_of_before {n : UInt64} (h : c.capacity = .limited n)
    (tx : Transaction) : (c.apply tx).numEntries ≤ max c.numEntries n.toNat := by
  rcases numEntries_apply_le c tx with hle | ⟨hroom, hle⟩
  · exact hle.trans (le_max_left _ _)
  · rw [hasRoom, h, Capacity.hasRoom, decide_eq_true_eq] at hroom
    exact (hle.trans hroom).trans (le_max_right _ _)

/-- **One transaction does not pass the limit**, be it the one in force before or the one after. -/
theorem numEntries_apply_le_max {n : UInt64} {tx : Transaction}
    (h : c.capacity = .limited n ∨ (c.apply tx).capacity = .limited n) :
    (c.apply tx).numEntries ≤ max c.numEntries n.toNat := by
  rcases h with hbefore | hafter
  · exact numEntries_apply_le_max_of_before hbefore tx
  · rcases numEntries_apply_eq_or_capacity_apply_eq c tx with hsame | hcap
    · exact hsame.le.trans (le_max_left _ _)
    · exact numEntries_apply_le_max_of_before (hcap ▸ hafter) tx

theorem numEntries_apply_le_of_isFull (h : c.IsFull) (tx : Transaction) :
    (c.apply tx).numEntries ≤ c.numEntries := by
  rcases numEntries_apply_le c tx with hle | ⟨hroom, -⟩
  · exact hle
  · rw [hasRoom_eq_false_iff.mpr h] at hroom
    cases hroom

/-! ## Who leaves an entry

`holds_apply_or_expire` is the other half of the ceiling. A limit could be kept by throwing somebody
out, and this says that it is not. -/

theorem holds_apply_or_expire {t : Ticket} (h : c.holds t = true) (tx : Transaction) :
    (c.apply tx).holds t = true ∨ ∃ u, tx = .expire u ∧ u.id = t.id ∧ u.entry = t.entry := by
  rw [holds, Std.ExtTreeSet.contains_iff_mem] at h
  simp only [holds, Std.ExtTreeSet.contains_iff_mem]
  cases tx with
  | evaluate u cancelled =>
    left
    cases hv : c.verdict u cancelled with
    | granted =>
      rw [apply_evaluate_of_granted hv, grant, Buckets.mem_ids_add]
      exact Or.inr h
    | withdrawn => rw [apply_evaluate_of_withdrawn hv]; exact h
    | blocked => rw [apply_evaluate_of_blocked hv]; exact h
    | orphaned => rw [apply_evaluate_of_orphaned hv]; exact h
  | expire u =>
    simp only [apply, expire, Buckets.mem_ids_remove]
    by_cases hu : t.entry = u.entry ∧ t.id = u.id
    · exact Or.inr ⟨u, rfl, hu.2.symm, hu.1.symm⟩
    · exact Or.inl ⟨h, hu⟩
  | register u => exact Or.inl h
  | abandon u => exact Or.inl h
  | setCapacity k => exact Or.inl h
  | setPolicy p => exact Or.inl h

/-! ## A whole run

Both statements look at every beginning of the run, since the capacity may change at any time. The
induction goes from the end: the last transaction is judged by the capacity just before it. -/

theorem applyAll_append_singleton (c : Controller) (txs : List Transaction) (tx : Transaction) :
    c.applyAll (txs ++ [tx]) = (c.applyAll txs).apply tx := by
  rw [applyAll, List.foldl_append]
  rfl

theorem numEntries_applyAll_le {m : Nat} (hm : c.numEntries ≤ m) {txs : List Transaction}
    (h : ∀ pre, pre <+: txs → (c.applyAll pre).capacity.AtMost m) :
    (c.applyAll txs).numEntries ≤ m := by
  induction txs using List.reverseRecOn with
  | nil => exact hm
  | append_singleton txs tx ih =>
    have hbefore := ih fun pre hpre => h pre (hpre.trans (List.prefix_append txs [tx]))
    obtain ⟨n, hn, hnm⟩ := h txs (List.prefix_append txs [tx])
    rw [applyAll_append_singleton]
    exact (numEntries_apply_le_max (Or.inl hn)).trans (max_le hbefore hnm)

theorem numEntries_applyAll_le_of_isFull {txs : List Transaction}
    (h : ∀ pre tx, pre ++ [tx] <+: txs → (c.applyAll pre).IsFull) :
    (c.applyAll txs).numEntries ≤ c.numEntries := by
  induction txs using List.reverseRecOn with
  | nil => exact le_rfl
  | append_singleton txs tx ih =>
    have hbefore := ih fun pre u hpre => h pre u (hpre.trans (List.prefix_append txs [tx]))
    rw [applyAll_append_singleton]
    exact (numEntries_apply_le_of_isFull (h txs tx List.prefix_rfl) tx).trans hbefore

/-- **The ceiling, without eviction.** After transactions in any order: the next one does not bring
the entries above both their number before and the limit; there are never more of them than the
greatest limit that was ever in force; while the limit is reached or exceeded they do not become
more; a change of the capacity takes nothing away; and no ticket leaves its entry but by expiry. -/
theorem ceiling_without_eviction (capacity : Capacity) (linger : Span) (txs : List Transaction) :
    let c := (new capacity linger).applyAll txs
    (∀ tx n, (c.capacity = .limited n ∨ (c.apply tx).capacity = .limited n) →
        (c.apply tx).numEntries ≤ max c.numEntries n.toNat) ∧
      (∀ m, (∀ pre, pre <+: txs → ((new capacity linger).applyAll pre).capacity.AtMost m) →
        c.numEntries ≤ m) ∧
      (∀ rest, (∀ pre tx, pre ++ [tx] <+: rest → (c.applyAll pre).IsFull) →
        (c.applyAll rest).numEntries ≤ c.numEntries) ∧
      (∀ k, (c.apply (.setCapacity k)).occupancy = c.occupancy) ∧
      ∀ tx t, c.holds t = true →
        (c.apply tx).holds t = true ∨ ∃ u, tx = .expire u ∧ u.id = t.id ∧ u.entry = t.entry := by
  intro c
  have hnone : (new capacity linger).numEntries = 0 := Std.ExtTreeMap.size_empty
  refine ⟨?_, ?_, ?_, ?_, ?_⟩
  · intro tx n h
    exact numEntries_apply_le_max h
  · intro m h
    exact numEntries_applyAll_le (hnone ▸ Nat.zero_le m) h
  · intro rest h
    exact numEntries_applyAll_le_of_isFull h
  · intro k
    rfl
  · intro tx t h
    exact holds_apply_or_expire h tx

/-- Two entries, and then the limit is lowered to one: both stay, and a third caller has to wait
until both have gone. -/
theorem ceiling_without_eviction_lowered :
    let a : Ticket := ⟨0, ⟨"udp", "", "a"⟩, "x", .standard⟩
    let b : Ticket := ⟨1, ⟨"udp", "", "b"⟩, "x", .standard⟩
    let d : Ticket := ⟨2, ⟨"udp", "", "d"⟩, "x", .standard⟩
    let txs := [.register a, .evaluate a false, .register b, .evaluate b false,
      .setCapacity (.limited 1)]
    let rest := [.register d, .evaluate d false, .expire b, .evaluate d false]
    let c := (new (.limited 2) .zero).applyAll txs
    c.numEntries = 2 ∧ c.numEntries ≤ 2 ∧ (c.apply (.register d)).numEntries ≤ max 2 1 ∧
      (c.applyAll rest).numEntries ≤ c.numEntries ∧
      (c.apply (.setCapacity .unlimited)).holds a := by
  intro a b d txs rest c
  have hcount : c.numEntries = 2 := by decide_cbv
  have hlimits : ∀ pre ∈ txs.inits, ((new (.limited 2) .zero).applyAll pre).capacity.AtMost 2 := by
    decide_cbv
  have hfull : ∀ pre ∈ rest.inits,
      (c.applyAll pre).capacity.AtMost (c.applyAll pre).numEntries := by decide_cbv
  obtain ⟨hstep, hrun, hstretch, -, hleave⟩ := ceiling_without_eviction (.limited 2) .zero txs
  refine ⟨hcount, ?_, ?_, ?_, ?_⟩
  · exact hrun 2 fun pre hpre => hlimits pre ((List.mem_inits pre txs).mpr hpre)
  · exact hcount ▸ hstep (.register d) 1 (Or.inl rfl)
  · refine hstretch rest fun pre tx hpre => hfull pre ((List.mem_inits pre rest).mpr ?_)
    exact (List.prefix_append pre [tx]).trans hpre
  · rcases hleave (.setCapacity .unlimited) a (by decide_cbv) with hstays | ⟨u, hexpire, -⟩
    · exact hstays
    · cases hexpire

end Controller

end Admission
