import Admission.Proofs.Index
import Admission.Proofs.Replay

/-!
# Tickets that leave together

When lingers end at the same instant, several tickets leave their entries, some of them the same
entry, and nobody says in which order. Nor does it matter, because of what can be asked of a table
without empty buckets afterwards:

> who holds an entry now is who held it before and is not on the list.

This mentions the list as a set, and a table is determined by who holds what
(`Buckets.Pruned.ext`), so neither the order nor a repetition leaves a trace. Whether a ticket frees
its entry does depend on the order. But an entry is freed by the one ticket with which it leaves the
table, and no ticket brings it back, so each entry that has gone in the end was freed once.
-/

set_option autoImplicit false

namespace Admission

/-- The entry that an effect frees, if it frees one. -/
def Effect.freed? : Effect → Option Entry
  | .expired t true => some t.entry
  | _ => none

namespace Controller

/-- The controller after tickets have left their entries, one after another. -/
def expireAll (c : Controller) (ts : List Ticket) : Controller := c.applyAll (ts.map .expire)

/-- The entries that are freed on the way, as the effects tell. -/
def freedBy (c : Controller) (ts : List Ticket) : List Entry :=
  (c.effects (ts.map .expire)).filterMap Effect.freed?

variable {c : Controller} {t : Ticket} {ts ts' : List Ticket} {e : Entry} {i : Nat}

theorem expireAll_cons : c.expireAll (t :: ts) = (c.expire t).expireAll ts := rfl

theorem expireAll_append : c.expireAll (ts ++ ts') = (c.expireAll ts).expireAll ts' := by
  rw [expireAll, List.map_append, applyAll, List.foldl_append]
  rfl

theorem freedBy_cons : c.freedBy (t :: ts) =
    if c.wouldFree t = true then t.entry :: (c.expire t).freedBy ts
    else (c.expire t).freedBy ts := by
  have heffects : c.effects ((t :: ts).map .expire) =
      .expired t (c.wouldFree t) :: (c.expire t).effects (ts.map .expire) := rfl
  rw [freedBy, heffects, List.filterMap_cons]
  cases c.wouldFree t <;> rfl

/-! ## Who holds what afterwards -/

theorem mem_ids_expire_iff : i ∈ (c.expire t).occupancy.ids e ↔
    i ∈ c.occupancy.ids e ∧ ¬ (e = t.entry ∧ i = t.id) :=
  Buckets.mem_ids_remove c.occupancy t.entry e t.id i

theorem mem_ids_expireAll_iff : i ∈ (c.expireAll ts).occupancy.ids e ↔
    i ∈ c.occupancy.ids e ∧ ∀ t ∈ ts, ¬ (e = t.entry ∧ i = t.id) := by
  induction ts generalizing c with
  | nil =>
    have hnil : c.expireAll [] = c := rfl
    simp [hnil]
  | cons t ts ih =>
    rw [expireAll_cons, ih, mem_ids_expire_iff, List.forall_mem_cons, and_assoc]

theorem pruned_expireAll (h : c.occupancy.Pruned) : (c.expireAll ts).occupancy.Pruned := by
  induction ts generalizing c with
  | nil => exact h
  | cons t ts ih => exact ih (h.remove t.entry t.id)

/-- Nothing but the table is touched. -/
theorem expireAll_eq : c.expireAll ts = { c with occupancy := (c.expireAll ts).occupancy } := by
  induction ts generalizing c with
  | nil => rfl
  | cons t ts ih => exact ih

/-- **The order does not matter, and neither does a repetition.** -/
theorem expireAll_congr (h : c.occupancy.Pruned) (hmem : ∀ t, t ∈ ts' ↔ t ∈ ts) :
    c.expireAll ts' = c.expireAll ts := by
  have htable : (c.expireAll ts').occupancy = (c.expireAll ts).occupancy := by
    refine (pruned_expireAll h).ext (pruned_expireAll h) fun e => ?_
    refine Std.ExtTreeSet.ext_mem fun i => ?_
    simp only [mem_ids_expireAll_iff, hmem]
  rw [expireAll_eq, htable]
  exact expireAll_eq.symm

/-! ## Which entries are freed -/

theorem isOccupied_of_wouldFree (h : c.wouldFree t = true) : c.isOccupied t.entry = true := by
  rw [isOccupied, Std.ExtTreeMap.contains_eq_isSome_getElem?]
  rw [wouldFree] at h
  cases hholders : c.occupancy[t.entry]? with
  | none =>
    rw [hholders] at h
    cases h
  | some holders => rfl

/-- The entry that a ticket frees is the one that is no longer occupied. -/
theorem isOccupied_expire (c : Controller) (t : Ticket) (e : Entry) :
    (c.expire t).isOccupied e =
      if e = t.entry ∧ c.wouldFree t = true then false else c.isOccupied e := by
  rw [isOccupied, isOccupied, Std.ExtTreeMap.contains_eq_isSome_getElem?,
    Std.ExtTreeMap.contains_eq_isSome_getElem?, expire, Buckets.getElem?_remove, wouldFree]
  by_cases he : e = t.entry
  · subst he
    rw [if_pos rfl]
    cases c.occupancy[t.entry]? with
    | none => simp
    | some holders => cases hempty : (holders.erase t.id).isEmpty <;> simp [hempty]
  · rw [if_neg (Ne.symm he), if_neg fun h => he h.1]

/-- **A ticket frees its entry exactly if the entry leaves the table with it.** -/
theorem wouldFree_eq_true_iff : c.wouldFree t = true ↔
    c.isOccupied t.entry = true ∧ (c.expire t).isOccupied t.entry = false := by
  rw [isOccupied_expire]
  constructor
  · intro hfree
    exact ⟨isOccupied_of_wouldFree hfree, if_pos ⟨rfl, hfree⟩⟩
  · rintro ⟨hbefore, hafter⟩
    by_contra hfree
    rw [if_neg fun h => hfree h.2, hbefore] at hafter
    cases hafter

/-- No ticket occupies an entry by leaving. -/
theorem isOccupied_of_expireAll (h : (c.expireAll ts).isOccupied e = true) :
    c.isOccupied e = true := by
  induction ts generalizing c with
  | nil => exact h
  | cons t ts ih =>
    have hbetween : (c.expire t).isOccupied e = true := ih h
    rw [isOccupied_expire] at hbetween
    split at hbetween
    case isTrue => cases hbetween
    case isFalse => exact hbetween

/-- **The entries that are freed are those that are occupied before and not afterwards.** -/
theorem mem_freedBy_iff : e ∈ c.freedBy ts ↔
    c.isOccupied e = true ∧ (c.expireAll ts).isOccupied e = false := by
  induction ts generalizing c with
  | nil =>
    have hnil : c.expireAll [] = c := rfl
    simp [freedBy, effects, hnil]
  | cons t ts ih =>
    have hlater : e ∈ c.freedBy (t :: ts) ↔
        (e = t.entry ∧ c.wouldFree t = true) ∨ e ∈ (c.expire t).freedBy ts := by
      rw [freedBy_cons]
      cases c.wouldFree t <;> simp
    rw [hlater, ih, isOccupied_expire, expireAll_cons]
    by_cases hfreed : e = t.entry ∧ c.wouldFree t = true
    · -- The entry goes with the first ticket, and none of the others brings it back.
      obtain ⟨rfl, hfree⟩ := hfreed
      refine iff_of_true (Or.inl ⟨rfl, hfree⟩) ⟨isOccupied_of_wouldFree hfree, ?_⟩
      refine Bool.eq_false_iff.mpr fun hback => ?_
      have hbetween := isOccupied_of_expireAll hback
      rw [isOccupied_expire, if_pos ⟨rfl, hfree⟩] at hbetween
      cases hbetween
    · rw [if_neg hfreed, or_iff_right hfreed]

/-- **No entry is freed twice.** -/
theorem nodup_freedBy (c : Controller) (ts : List Ticket) : (c.freedBy ts).Nodup := by
  induction ts generalizing c with
  | nil => exact List.nodup_nil
  | cons t ts ih =>
    rw [freedBy_cons]
    split
    case isTrue hfree =>
      refine List.nodup_cons.mpr ⟨fun hagain => ?_, ih (c.expire t)⟩
      have hbetween := (mem_freedBy_iff.mp hagain).1
      rw [isOccupied_expire, if_pos ⟨rfl, hfree⟩] at hbetween
      cases hbetween
    case isFalse => exact ih (c.expire t)

/-- **Expiries commute, and to repeat them does nothing.** From a table without empty buckets, a
list of tickets leads to one table in every order and however often each ticket stands in the list,
and once they have left, to let them leave again changes nothing. The table has no empty bucket
again. Of each entry just the tickets of the list that name it are gone, all other holders remain,
and nothing but the table is touched. In the effects, each entry that was occupied before and is not
afterwards is freed once, and no other is freed. -/
theorem expiries_commute (h : c.occupancy.Pruned) (ts : List Ticket) :
    (∀ order, (∀ t, t ∈ order ↔ t ∈ ts) → c.expireAll order = c.expireAll ts) ∧
    (∀ again ⊆ ts, (c.expireAll ts).expireAll again = c.expireAll ts) ∧
    (c.expireAll ts).occupancy.Pruned ∧
    (∀ e i, i ∈ (c.expireAll ts).occupancy.ids e ↔
      i ∈ c.occupancy.ids e ∧ ¬ ∃ t ∈ ts, t.entry = e ∧ t.id = i) ∧
    c.expireAll ts = { c with occupancy := (c.expireAll ts).occupancy } ∧
    (c.freedBy ts).Nodup ∧
    ∀ e, e ∈ c.freedBy ts ↔ c.isOccupied e = true ∧ (c.expireAll ts).isOccupied e = false := by
  refine ⟨?_, ?_, pruned_expireAll h, ?_, expireAll_eq, nodup_freedBy c ts, ?_⟩
  · intro order hmem
    exact expireAll_congr h hmem
  · intro again hsub
    rw [← expireAll_append]
    refine expireAll_congr h fun t => ?_
    rw [List.mem_append]
    exact ⟨fun ht => ht.elim id fun hagain => hsub hagain, Or.inl⟩
  · intro e i
    rw [mem_ids_expireAll_iff]
    simp only [not_exists, not_and, eq_comm]
  · intro e
    exact mem_freedBy_iff

/-- Two tickets share an entry and a third one has an entry of its own. The second one stays,
whether the others leave in one order or in the other one and once more, and one entry is freed. -/
theorem expiries_commute_shared :
    let a : Ticket := ⟨0, ⟨"udp", "", "a"⟩, "x", .standard⟩
    let b : Ticket := ⟨1, ⟨"udp", "", "a"⟩, "y", .standard⟩
    let d : Ticket := ⟨2, ⟨"udp", "", "d"⟩, "x", .standard⟩
    let c := (((new .standard .zero).grant a).grant b).grant d
    c.occupancy.Pruned ∧ c.expireAll [d, a, d] = c.expireAll [a, d] ∧
      1 ∈ (c.expireAll [a, d]).occupancy.ids b.entry ∧ c.freedBy [a, d] = [d.entry] := by
  intro a b d c
  have hpruned : c.occupancy.Pruned :=
    (((Buckets.Indexes.empty Ticket.entry).pruned.add a.entry 0).add b.entry 1).add d.entry 2
  obtain ⟨horder, -, -, hids, -⟩ := expiries_commute hpruned [a, d]
  refine ⟨hpruned, horder [d, a, d] fun t => ?_, (hids b.entry 1).mpr ⟨?_, ?_⟩, ?_⟩
  · simp only [List.mem_cons, List.not_mem_nil, or_false]
    tauto
  · decide_cbv
  · simp [a, d]
  · decide_cbv

end Controller

end Admission
