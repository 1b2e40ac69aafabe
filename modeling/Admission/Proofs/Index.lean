import Admission.Buckets
import Admission.Ticket
import Mathlib.Data.Set.Insert

/-!
# An index and the set of tickets that it stands for

`Buckets` says what an operation does to one bucket. The rest of the theory wants to know which
*tickets* an index stands for, and the one relation it uses is `Buckets.Indexes b key W`:

> the identity of a ticket stands under a key exactly if `W` has such a ticket with that key, and
> no key stands there without a ticket.

All five collections of a controller are indexes in this sense: the occupied entries, and the
views of the waiting room. What filing and taking out do to `W` is proved here once for all of
them.
-/

set_option autoImplicit false

namespace Admission.Buckets

variable {κ : Type} [Ord κ] [Std.TransOrd κ]

/-- Every key that stands in the index has a ticket. -/
def Pruned (b : Buckets κ) : Prop := ∀ (k : κ) (bucket : Ids), b[k]? = some bucket → bucket ≠ ∅

/-- The index files every ticket of `W` under its key and nothing else, and has no empty bucket. -/
structure Indexes (b : Buckets κ) (key : Ticket → κ) (W : Set Ticket) : Prop where
  mem_ids_iff : ∀ k i, i ∈ b.ids k ↔ ∃ t ∈ W, key t = k ∧ t.id = i
  pruned : b.Pruned

/-! ## Keys and their tickets -/

theorem exists_mem_of_ne_empty {s : Ids} (h : s ≠ ∅) : ∃ i, i ∈ s := by
  by_contra hn
  refine h (Std.ExtTreeSet.ext_mem fun i => ⟨fun hi => absurd ⟨i, hi⟩ hn, fun hi => ?_⟩)
  exact absurd hi Std.ExtTreeSet.not_mem_empty

theorem Pruned.mem_iff {b : Buckets κ} (h : b.Pruned) (k : κ) : k ∈ b ↔ ∃ i, i ∈ b.ids k := by
  rw [Std.ExtTreeMap.mem_iff_isSome_getElem?, ids]
  cases hk : b[k]? with
  | none => simp
  | some bucket => simpa using exists_mem_of_ne_empty (h k bucket hk)

/-- Without empty buckets an index is determined by the tickets under each key. -/
theorem Pruned.ext [Std.LawfulEqOrd κ] {b b' : Buckets κ} (h : b.Pruned) (h' : b'.Pruned)
    (hids : ∀ k, b.ids k = b'.ids k) : b = b' := by
  refine Std.ExtTreeMap.ext_getElem? fun k => ?_
  have hk := hids k
  -- Under a key there is no bucket, or the one with these numbers, since none is empty.
  rw [ids, ids] at hk
  cases hb : b[k]? with
  | none =>
    cases hb' : b'[k]? with
    | none => rfl
    | some bucket' =>
      rw [hb, hb'] at hk
      exact absurd hk.symm (h' k bucket' hb')
  | some bucket =>
    cases hb' : b'[k]? with
    | none =>
      rw [hb, hb'] at hk
      exact absurd hk (h k bucket hb)
    | some bucket' =>
      rw [hb, hb'] at hk
      exact congrArg some hk

namespace Indexes

variable {b : Buckets κ} {key : Ticket → κ} {W : Set Ticket}

theorem empty (key : Ticket → κ) : Indexes (∅ : Buckets κ) key ∅ where
  mem_ids_iff k i := by simp [ids_empty]
  pruned k bucket h := by simp at h

theorem mem_iff (h : b.Indexes key W) (k : κ) : k ∈ b ↔ ∃ t ∈ W, key t = k := by
  rw [h.pruned.mem_iff]
  simp only [h.mem_ids_iff]
  constructor
  · rintro ⟨i, t, ht, hk, -⟩
    exact ⟨t, ht, hk⟩
  · rintro ⟨t, ht, hk⟩
    exact ⟨t.id, t, ht, hk, rfl⟩

/-- Where the number of a ticket stands, if the set knows nobody else by that number. -/
theorem id_mem_ids_iff (h : b.Indexes key W) {t : Ticket} (ht : ∀ u ∈ W, u.id = t.id → u = t)
    (k : κ) : t.id ∈ b.ids k ↔ t ∈ W ∧ k = key t := by
  rw [h.mem_ids_iff]
  constructor
  · rintro ⟨u, hu, hk, hi⟩
    obtain rfl := ht u hu hi
    exact ⟨hu, hk.symm⟩
  · rintro ⟨hW, rfl⟩
    exact ⟨t, hW, rfl, rfl⟩

/-- An index is determined by the set that it stands for. -/
theorem unique [Std.LawfulEqOrd κ] {b' : Buckets κ} (h : b.Indexes key W)
    (h' : b'.Indexes key W) : b = b' :=
  h.pruned.ext h'.pruned fun k =>
    Std.ExtTreeSet.ext_mem fun i => (h.mem_ids_iff k i).trans (h'.mem_ids_iff k i).symm

end Indexes

/-! ## Filing and taking out -/

variable [Std.LawfulEqOrd κ] [DecidableEq κ]

theorem mem_ids_add (b : Buckets κ) (key k : κ) (id i : Nat) :
    i ∈ (b.add key id).ids k ↔ (k = key ∧ i = id) ∨ i ∈ b.ids k := by
  rw [ids, getElem?_add]
  by_cases h : key = k
  · subst h
    rw [if_pos rfl, Option.getD_some, Std.ExtTreeSet.mem_insert]
    simp only [compare_eq_iff_eq, true_and]
    exact or_congr_left eq_comm
  · rw [if_neg h]
    have hk : ¬ (k = key ∧ i = id) := fun hk => h hk.1.symm
    simp only [hk, false_or, ids]

theorem mem_ids_remove (b : Buckets κ) (key k : κ) (id i : Nat) :
    i ∈ (b.remove key id).ids k ↔ i ∈ b.ids k ∧ ¬ (k = key ∧ i = id) := by
  rw [ids, getElem?_remove]
  by_cases h : key = k
  · subst h
    rw [if_pos rfl, ids]
    cases b[key]? with
    | none => simp
    | some bucket =>
      have hmem : i ∈ bucket.erase id ↔ i ∈ bucket ∧ ¬ i = id := by
        rw [Std.ExtTreeSet.mem_erase, and_comm, ne_eq, compare_eq_iff_eq]
        exact and_congr_right' (not_congr eq_comm)
      dsimp only
      -- The key goes with its last ticket, and then there is nothing under it, as `hmem` has it.
      split
      case isTrue hempty =>
        rw [Std.ExtTreeSet.isEmpty_iff] at hempty
        rw [hempty] at hmem
        simpa using hmem
      case isFalse => simpa using hmem
  · rw [if_neg h]
    have hk : ¬ (k = key ∧ i = id) := fun hk => h hk.1.symm
    simp only [hk, not_false_eq_true, and_true, ids]

theorem Pruned.add {b : Buckets κ} (h : b.Pruned) (key : κ) (id : Nat) :
    (b.add key id).Pruned := by
  intro k bucket hk
  rw [getElem?_add] at hk
  split at hk
  · obtain rfl := Option.some.inj hk
    exact fun hempty => Std.ExtTreeSet.not_mem_empty (hempty ▸ Std.ExtTreeSet.mem_insert_self)
  · exact h k bucket hk

theorem Pruned.remove {b : Buckets κ} (h : b.Pruned) (key : κ) (id : Nat) :
    (b.remove key id).Pruned := by
  intro k bucket hk
  rw [getElem?_remove] at hk
  split at hk
  · cases hb : b[key]? with
    | none => simp [hb] at hk
    | some old =>
      simp only [hb] at hk
      split at hk
      case isTrue => cases hk
      case isFalse hne =>
        obtain rfl := Option.some.inj hk
        exact fun hempty => hne (Std.ExtTreeSet.isEmpty_iff.mpr hempty)
  · exact h k bucket hk

namespace Indexes

variable {b : Buckets κ} {key : Ticket → κ} {W : Set Ticket}

theorem add (h : b.Indexes key W) (t : Ticket) :
    (b.add (key t) t.id).Indexes key (insert t W) where
  mem_ids_iff k i := by
    rw [mem_ids_add, h.mem_ids_iff]
    constructor
    · rintro (⟨rfl, rfl⟩ | ⟨u, hu, hk, hi⟩)
      · exact ⟨t, Set.mem_insert t W, rfl, rfl⟩
      · exact ⟨u, Set.mem_insert_of_mem t hu, hk, hi⟩
    · rintro ⟨u, hu, rfl, rfl⟩
      rcases hu with rfl | hu
      · exact Or.inl ⟨rfl, rfl⟩
      · exact Or.inr ⟨u, hu, rfl, rfl⟩
  pruned := h.pruned.add (key t) t.id

/-- Taking a ticket out of an index that knows nobody else by its number. -/
theorem remove (h : b.Indexes key W) {t : Ticket} (ht : ∀ u ∈ W, u.id = t.id → u = t) :
    (b.remove (key t) t.id).Indexes key (W \ {t}) where
  mem_ids_iff k i := by
    rw [mem_ids_remove, h.mem_ids_iff]
    constructor
    · rintro ⟨⟨u, hu, rfl, rfl⟩, hne⟩
      refine ⟨u, ⟨hu, ?_⟩, rfl, rfl⟩
      rintro rfl
      exact hne ⟨rfl, rfl⟩
    · rintro ⟨u, ⟨hu, hne⟩, rfl, rfl⟩
      exact ⟨⟨u, hu, rfl, rfl⟩, fun heq => hne (ht u hu heq.2)⟩
  pruned := h.pruned.remove (key t) t.id

end Indexes

end Admission.Buckets
