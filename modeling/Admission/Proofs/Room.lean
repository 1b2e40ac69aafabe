import Admission.Proofs.Index
import Admission.WaitingRoom
import Mathlib.Order.BooleanAlgebra.Set

/-!
# The waiting room and the tickets that wait in it

A waiting room has four views, and a claim about it is seldom about one of them alone. Here they
are tied together: `WaitingRoom.Seats r W` says that all four are views of the same set `W` of
tickets. Entering and leaving keep this up, with one more or one less ticket in `W`, provided that
nobody else in `W` goes by the ticket's number.

What the controller asks of the room is then a fact about `W`: a number is a member exactly if
somebody in `W` has it, and the top priority is the greatest in `W`.
-/

set_option autoImplicit false

namespace Admission

theorem Priority.isLE_compare {p q : Priority} : (compare p q).isLE = true ↔ p ≤ q := by
  rw [Priority.compare_def]
  exact Std.LawfulOrderOrd.isLE_compare p.value q.value

namespace WaitingRoom

/-- The tickets of `W` wait in the room, and nobody else does: their numbers are the members, and
each of the other views files them under their own field. -/
structure Seats (r : WaitingRoom) (W : Set Ticket) : Prop where
  mem_members_iff : ∀ i, i ∈ r.members ↔ ∃ t ∈ W, t.id = i
  byPriority : r.byPriority.Indexes Ticket.priority W
  byReason : r.byReason.Indexes Ticket.reason W
  byEntry : r.byEntry.Indexes Ticket.entry W

namespace Seats

variable {r : WaitingRoom} {W : Set Ticket}

theorem empty : Seats .empty ∅ where
  mem_members_iff i := by simp [WaitingRoom.empty]
  byPriority := .empty _
  byReason := .empty _
  byEntry := .empty _

/-! ## Who is inside -/

theorem contains_iff (h : r.Seats W) {t : Ticket} (ht : ∀ u ∈ W, u.id = t.id → u = t) :
    r.contains t.id = true ↔ t ∈ W := by
  rw [contains, Std.ExtTreeSet.contains_iff_mem, h.mem_members_iff]
  constructor
  · rintro ⟨u, hu, hid⟩
    exact ht u hu hid ▸ hu
  · exact fun hW => ⟨t, hW, rfl⟩

theorem topPriority_eq_some_iff (h : r.Seats W) (p : Priority) :
    r.topPriority = some p ↔ (∃ t ∈ W, t.priority = p) ∧ ∀ t ∈ W, t.priority ≤ p := by
  rw [topPriority, Std.ExtTreeMap.maxKey?_eq_some_iff_mem_and_forall, h.byPriority.mem_iff]
  refine and_congr_right' ?_
  constructor
  · intro hmax t ht
    exact Priority.isLE_compare.mp (hmax t.priority ((h.byPriority.mem_iff _).mpr ⟨t, ht, rfl⟩))
  · intro hmax k hk
    obtain ⟨t, ht, rfl⟩ := (h.byPriority.mem_iff k).mp hk
    exact Priority.isLE_compare.mpr (hmax t ht)

theorem exists_topPriority (h : r.Seats W) {t : Ticket} (ht : t ∈ W) :
    ∃ p, r.topPriority = some p := by
  cases htop : r.topPriority with
  | some p => exact ⟨p, rfl⟩
  | none =>
    rw [topPriority, Std.ExtTreeMap.maxKey?_eq_none_iff] at htop
    have hmem := (h.byPriority.mem_iff t.priority).mpr ⟨t, ht, rfl⟩
    rw [htop] at hmem
    exact absurd hmem Std.ExtTreeMap.not_mem_empty

/-- **A room is determined by who waits in it.** -/
theorem unique (h : r.Seats W) {r' : WaitingRoom} (h' : r'.Seats W) : r = r' := by
  have hmembers : r.members = r'.members :=
    Std.ExtTreeSet.ext_mem fun i => (h.mem_members_iff i).trans (h'.mem_members_iff i).symm
  cases r
  cases r'
  simp only [WaitingRoom.mk.injEq]
  exact ⟨h.byPriority.unique h'.byPriority, h.byReason.unique h'.byReason,
    h.byEntry.unique h'.byEntry, hmembers⟩

/-! ## Entering and leaving -/

theorem enter (h : r.Seats W) {t : Ticket} (ht : ∀ u ∈ W, u.id = t.id → u = t) :
    (r.enter t).Seats (insert t W) := by
  by_cases hin : r.contains t.id = true
  · rw [enter_of_contains hin, Set.insert_eq_of_mem ((h.contains_iff ht).mp hin)]
    exact h
  · rw [WaitingRoom.enter, if_neg hin]
    refine ⟨fun i => ?_, h.byPriority.add t, h.byReason.add t, h.byEntry.add t⟩
    rw [Std.ExtTreeSet.mem_insert, compare_eq_iff_eq, h.mem_members_iff]
    simp only [Set.mem_insert_iff, exists_eq_or_imp]

theorem leave (h : r.Seats W) {t : Ticket} (ht : ∀ u ∈ W, u.id = t.id → u = t) :
    (r.leave t).Seats (W \ {t}) := by
  by_cases hin : r.contains t.id = true
  · rw [WaitingRoom.leave, if_pos hin]
    refine ⟨fun i => ?_, h.byPriority.remove ht, h.byReason.remove ht, h.byEntry.remove ht⟩
    rw [Std.ExtTreeSet.mem_erase, ne_eq, compare_eq_iff_eq, h.mem_members_iff]
    constructor
    · rintro ⟨hne, u, hu, rfl⟩
      refine ⟨u, ⟨hu, ?_⟩, rfl⟩
      rintro rfl
      exact hne rfl
    · rintro ⟨u, ⟨hu, hne⟩, rfl⟩
      exact ⟨fun hid => hne (ht u hu hid.symm), u, hu, rfl⟩
  · rw [leave_of_not_contains (Bool.not_eq_true _ ▸ hin)]
    rw [Set.sdiff_singleton_eq_self (mt (h.contains_iff ht).mpr hin)]
    exact h

end Seats

end WaitingRoom

end Admission
