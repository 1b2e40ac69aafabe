import Admission.Proofs.ByteOrder
import Admission.Proofs.Census

/-!
# A waiting room after any sequence of visits

Tickets enter the waiting room and leave it in any order, some of them twice, some without having
been inside. A ticket is inside if its last visit was an entry: that can be told from the sequence
alone, without a look at the room (`Inside`). And the sequence leaves nothing else behind:

> two sequences that leave the same tickets inside leave the same room behind.

So a room can be read as a set of tickets. A visit may have no effect on it, but the last visit that
had one tells the same of its ticket as the last visit (`inside_iff_lastChangeIsEntry`).
`WaitingRoom.Shows` says how each of its answers is read off the set, and that the room is the one
which the tickets of the set make by entering once, in any order.
-/

set_option autoImplicit false

namespace Admission

/-- A ticket enters the waiting room or leaves it. -/
inductive Visit where
  | enter (t : Ticket)
  | leave (t : Ticket)
deriving DecidableEq

def Visit.ticket : Visit → Ticket
  | enter t => t
  | leave t => t

namespace WaitingRoom

def visit (r : WaitingRoom) : Visit → WaitingRoom
  | .enter t => r.enter t
  | .leave t => (r.remove t).2

/-- The room after visits, one after another, to an empty one. -/
def after (visits : List Visit) : WaitingRoom := visits.foldl visit .empty

end WaitingRoom

open WaitingRoom

/-- The last visit of the ticket was an entry. -/
def Inside (visits : List Visit) (t : Ticket) : Prop :=
  ∃ before later, visits = before ++ .enter t :: later ∧ ∀ v ∈ later, v.ticket ≠ t

/-- The last visit of the ticket that changed the room was an entry. -/
def LastChangeIsEntry (visits : List Visit) (t : Ticket) : Prop :=
  ∃ before later, visits = before ++ .enter t :: later ∧
    (after before).visit (.enter t) ≠ after before ∧
    ∀ v between rest, later = between ++ v :: rest → v.ticket = t →
      (after (before ++ .enter t :: between)).visit v = after (before ++ .enter t :: between)

/-- No two tickets among the visits have the same number. -/
def DistinctIds (visits : List Visit) : Prop :=
  ∀ v ∈ visits, ∀ w ∈ visits, v.ticket.id = w.ticket.id → v.ticket = w.ticket

/-! ## Who is inside -/

/-- One more visit: it is an entry of the ticket, or it is not a visit of the ticket at all. -/
theorem inside_concat_iff {visits : List Visit} {v : Visit} {t : Ticket} :
    Inside (visits ++ [v]) t ↔ v = .enter t ∨ (Inside visits t ∧ v.ticket ≠ t) := by
  constructor
  · rintro ⟨before, later, heq, hno⟩
    rcases List.eq_nil_or_concat later with rfl | ⟨later, u, rfl⟩
    · obtain ⟨-, hv⟩ := List.append_inj' heq rfl
      exact Or.inl (List.singleton_inj.mp hv)
    · rw [List.concat_eq_append, ← List.cons_append, ← List.append_assoc] at heq
      obtain ⟨rfl, hv⟩ := List.append_inj' heq rfl
      obtain rfl := List.singleton_inj.mp hv
      exact Or.inr ⟨⟨before, later, rfl, fun w hw => hno w (by simp [hw])⟩, hno v (by simp)⟩
  · rintro (rfl | ⟨⟨before, later, rfl, hno⟩, hlast⟩)
    · exact ⟨visits, [], rfl, by simp⟩
    · refine ⟨before, later ++ [v], by simp, fun w hw => ?_⟩
      rcases List.mem_append.mp hw with hlater | hv
      · exact hno w hlater
      · rwa [List.mem_singleton.mp hv]

theorem enter_mem_of_inside {visits : List Visit} {t : Ticket} (h : Inside visits t) :
    Visit.enter t ∈ visits := by
  obtain ⟨before, later, rfl, -⟩ := h
  simp

/-- An entry makes its ticket one of those inside. -/
theorem inside_concat_enter_iff {visits : List Visit} {t u : Ticket} :
    Inside (visits ++ [.enter u]) t ↔ t = u ∨ Inside visits t := by
  rw [inside_concat_iff, Visit.enter.injEq, Visit.ticket, eq_comm]
  tauto

/-- A leave makes its ticket none of those inside. -/
theorem inside_concat_leave_iff {visits : List Visit} {t u : Ticket} :
    Inside (visits ++ [.leave u]) t ↔ Inside visits t ∧ t ≠ u := by
  simp only [inside_concat_iff, reduceCtorEq, false_or, Visit.ticket, ne_comm]

theorem injOn_inside {visits : List Visit} (hids : DistinctIds visits) :
    Set.InjOn Ticket.id {t | Inside visits t} := fun t ht u hu hid =>
  hids (.enter t) (enter_mem_of_inside ht) (.enter u) (enter_mem_of_inside hu) hid

/-- The ticket of one more visit has its number to itself. -/
theorem DistinctIds.eq_of_inside {visits : List Visit} {v : Visit}
    (hids : DistinctIds (visits ++ [v])) {t : Ticket} (ht : Inside visits t)
    (hid : t.id = v.ticket.id) : t = v.ticket :=
  hids (.enter t) (List.mem_append_left _ (enter_mem_of_inside ht)) v (by simp) hid

theorem DistinctIds.of_append {visits rest : List Visit} (hids : DistinctIds (visits ++ rest)) :
    DistinctIds visits := fun u hu w hw =>
  hids u (List.mem_append_left _ hu) w (List.mem_append_left _ hw)

/-! ## What a room shows -/

/-- What a room shows of the tickets that wait in it. -/
structure WaitingRoom.Shows (r : WaitingRoom) (W : Set Ticket) : Prop where
  finite : W.Finite
  size : r.size = W.ncard
  contains : ∀ id, r.contains id = true ↔ ∃ t ∈ W, t.id = id
  waitingFor : ∀ e, r.waitingFor e = {t ∈ W | t.entry = e}.ncard
  /-- No reason is listed twice, and they come in the order of their bytes. -/
  reasons_ascending :
    (r.reasonCounts.map Prod.fst).Pairwise fun a b => Text.bytes a < Text.bytes b
  /-- The reasons that occur are listed, and how often they occur. -/
  mem_reasonCounts : ∀ reason n, (reason, n) ∈ r.reasonCounts ↔
    n = {t ∈ W | t.reason = reason}.ncard ∧ 0 < n
  topPriority_eq_some : ∀ p, r.topPriority = some p ↔
    (∃ t ∈ W, t.priority = p) ∧ ∀ t ∈ W, t.priority ≤ p
  topPriority_eq_none : r.topPriority = none ↔ W = ∅
  isConsistent : r.isConsistent = true
  /-- The room does not depend on more than the set. -/
  canonical : ∀ tickets : List Ticket, tickets.Nodup → (∀ t, t ∈ tickets ↔ t ∈ W) →
    tickets.foldl enter .empty = r

namespace WaitingRoom

variable {r : WaitingRoom} {W : Set Ticket}

theorem Seats.foldl_enter (h : r.Seats W) {tickets : List Ticket}
    (hinj : Set.InjOn Ticket.id (W ∪ {t | t ∈ tickets})) :
    (tickets.foldl WaitingRoom.enter r).Seats (W ∪ {t | t ∈ tickets}) := by
  induction tickets generalizing r W with
  | nil => simpa using h
  | cons t rest ih =>
    have hset : insert t W ∪ {u | u ∈ rest} = W ∪ {u | u ∈ t :: rest} := by
      ext u
      simp only [Set.mem_union, Set.mem_insert_iff, Set.mem_ofPred_eq, List.mem_cons]
      tauto
    have hone : ∀ u ∈ W, u.id = t.id → u = t := fun u hu hid =>
      hinj (Or.inl hu) (Or.inr List.mem_cons_self) hid
    have hrest := ih (h.enter hone)
    rw [hset] at hrest
    exact hrest hinj

theorem Seats.shows (h : r.Seats W) (hinj : Set.InjOn Ticket.id W) : r.Shows W where
  finite := h.byEntry.finite hinj
  size := (Ids.ncard_eq_size hinj h.mem_members_iff).symm
  contains id := Std.ExtTreeSet.contains_iff_mem.trans (h.mem_members_iff id)
  waitingFor e := h.byEntry.count_eq_ncard hinj e
  reasons_ascending := r.byReason.ordered_counts.imp Text.compare_eq_lt_iff.mp
  mem_reasonCounts := h.byReason.mem_counts_iff hinj
  topPriority_eq_some := h.topPriority_eq_some_iff
  topPriority_eq_none := by
    constructor
    · intro hnone
      refine Set.eq_empty_of_forall_notMem fun t ht => ?_
      obtain ⟨p, hp⟩ := h.exists_topPriority ht
      rw [hnone] at hp
      cases hp
    · rintro rfl
      cases htop : r.topPriority with
      | none => rfl
      | some p =>
        obtain ⟨⟨t, ht, -⟩, -⟩ := (h.topPriority_eq_some_iff p).mp htop
        cases ht
  isConsistent := by
    simp only [WaitingRoom.isConsistent, h.byPriority.covers hinj h.mem_members_iff,
      h.byReason.covers hinj h.mem_members_iff, h.byEntry.covers hinj h.mem_members_iff,
      Bool.and_self]
  canonical tickets _ hmem := by
    have hset : (∅ : Set Ticket) ∪ {t | t ∈ tickets} = W := by
      ext t
      simp [hmem]
    have hfold : (tickets.foldl WaitingRoom.enter WaitingRoom.empty).Seats
        (∅ ∪ {t | t ∈ tickets}) :=
      Seats.empty.foldl_enter (hset ▸ hinj)
    rw [hset] at hfold
    exact hfold.unique h

/-! ## The room of those inside -/

theorem after_concat (visits : List Visit) (v : Visit) :
    after (visits ++ [v]) = (after visits).visit v := by
  simp only [after, List.foldl_append, List.foldl_cons, List.foldl_nil]

/-- The room is that of the tickets inside. -/
theorem seats_after {visits : List Visit} (hids : DistinctIds visits) :
    (after visits).Seats {t | Inside visits t} := by
  -- On the visits from the end, since what is inside is told of a sequence and its last visit.
  induction visits using List.reverseRecOn with
  | nil =>
    have hnobody : {t | Inside [] t} = (∅ : Set Ticket) :=
      Set.eq_empty_of_forall_notMem fun t ht => List.not_mem_nil (enter_mem_of_inside ht)
    rw [hnobody]
    exact .empty
  | append_singleton visits v ih =>
    have hseats := ih hids.of_append
    have hone : ∀ t ∈ {t | Inside visits t}, t.id = v.ticket.id → t = v.ticket :=
      fun t ht => hids.eq_of_inside ht
    rw [after_concat]
    cases v with
    | enter u =>
      have hset : {t | Inside (visits ++ [.enter u]) t} = insert u {t | Inside visits t} :=
        Set.ext fun t => inside_concat_enter_iff
      rw [hset]
      exact hseats.enter hone
    | leave u =>
      have hset : {t | Inside (visits ++ [.leave u]) t} = {t | Inside visits t} \ {u} :=
        Set.ext fun t => inside_concat_leave_iff
      rw [hset]
      exact hseats.leave hone

/-- Whether the room knows the ticket of one more visit. -/
theorem contains_iff_inside {visits : List Visit} {v : Visit}
    (hids : DistinctIds (visits ++ [v])) :
    (after visits).contains v.ticket.id = true ↔ Inside visits v.ticket :=
  (seats_after hids.of_append).contains_iff fun _ ht => hids.eq_of_inside ht

/-! ## Visits without effect

A repeated entry has none, and a ticket that is not inside does not leave. Neither changes whether
its ticket is inside. -/

theorem enter_eq_self_iff (r : WaitingRoom) (t : Ticket) :
    r.enter t = r ↔ r.contains t.id = true := by
  refine ⟨fun heq => ?_, enter_of_contains⟩
  by_contra hin
  have hmem : t.id ∈ (r.enter t).members := by
    rw [WaitingRoom.enter, if_neg hin]
    exact Std.ExtTreeSet.mem_insert_self
  rw [heq] at hmem
  exact hin (Std.ExtTreeSet.contains_iff_mem.mpr hmem)

theorem leave_eq_self_iff (r : WaitingRoom) (t : Ticket) :
    r.leave t = r ↔ r.contains t.id = false := by
  refine ⟨fun heq => ?_, leave_of_not_contains⟩
  by_contra hin
  rw [Bool.not_eq_false] at hin
  have hmem : t.id ∉ (r.leave t).members := by
    rw [WaitingRoom.leave, if_pos hin]
    simp
  rw [heq] at hmem
  exact hmem (Std.ExtTreeSet.contains_iff_mem.mp hin)

theorem lastChangeIsEntry_concat_iff {visits : List Visit} {v : Visit} {t : Ticket} :
    LastChangeIsEntry (visits ++ [v]) t ↔
      (v = .enter t ∧ (after visits).visit v ≠ after visits) ∨
        (LastChangeIsEntry visits t ∧
          (v.ticket = t → (after visits).visit v = after visits)) := by
  constructor
  · rintro ⟨before, later, heq, heffect, hno⟩
    rcases List.eq_nil_or_concat later with rfl | ⟨later, u, rfl⟩
    · obtain ⟨rfl, hv⟩ := List.append_inj' heq rfl
      obtain rfl := List.singleton_inj.mp hv
      exact Or.inl ⟨rfl, heffect⟩
    · rw [List.concat_eq_append, ← List.cons_append, ← List.append_assoc] at heq
      obtain ⟨rfl, hv⟩ := List.append_inj' heq rfl
      obtain rfl := List.singleton_inj.mp hv
      refine Or.inr ⟨⟨before, later, rfl, heffect, fun w between rest hlater => ?_⟩, ?_⟩
      · exact hno w between (rest ++ [v]) (by simp [hlater])
      · exact hno v later [] (by simp)
  · rintro (⟨rfl, heffect⟩ | ⟨⟨before, later, rfl, heffect, hno⟩, hlast⟩)
    · exact ⟨visits, [], rfl, heffect, by simp⟩
    · refine ⟨before, later ++ [v], by simp, heffect, fun w between rest hlater => ?_⟩
      rcases List.eq_nil_or_concat rest with rfl | ⟨rest, u, rfl⟩
      · obtain ⟨rfl, hv⟩ := List.append_inj' hlater rfl
        obtain rfl := List.singleton_inj.mp hv
        exact hlast
      · rw [List.concat_eq_append, ← List.cons_append, ← List.append_assoc] at hlater
        obtain ⟨hlater, -⟩ := List.append_inj' hlater rfl
        exact hno w between rest hlater

/-- The last visit and the last change tell the same of a ticket. -/
theorem inside_iff_lastChangeIsEntry {visits : List Visit} (hids : DistinctIds visits)
    (t : Ticket) : Inside visits t ↔ LastChangeIsEntry visits t := by
  induction visits using List.reverseRecOn with
  | nil => simp [Inside, LastChangeIsEntry]
  | append_singleton visits v ih =>
    have hknown := contains_iff_inside hids
    rw [lastChangeIsEntry_concat_iff, ← ih hids.of_append]
    cases v with
    | enter u =>
      simp only [visit, Visit.ticket, Visit.enter.injEq, ne_eq, enter_eq_self_iff] at hknown ⊢
      rw [inside_concat_enter_iff, hknown]
      by_cases htu : u = t
      · subst htu
        tauto
      · simp [htu, Ne.symm htu]
    | leave u =>
      simp only [visit, WaitingRoom.remove, Visit.ticket, reduceCtorEq, false_and, false_or,
        leave_eq_self_iff, ← Bool.not_eq_true] at hknown ⊢
      rw [inside_concat_leave_iff, hknown]
      by_cases htu : u = t
      · subst htu
        tauto
      · simp [htu, Ne.symm htu]

/-- **A room is a set of tickets.** After every sequence of visits, also with visits that have no
effect, the room shows the tickets whose last visit was an entry, and is the one that these tickets
make by entering once in any order. They are the tickets whose last effective visit was an entry.
And whenever a ticket leaves, it is told whether it was inside. -/
theorem shows_who_is_inside (visits : List Visit) (hids : DistinctIds visits) :
    (after visits).Shows {t | Inside visits t} ∧
      (∀ t, Inside visits t ↔ LastChangeIsEntry visits t) ∧
      ∀ before t rest, visits = before ++ .leave t :: rest →
        (((after before).remove t).1 = true ↔ Inside before t) := by
  refine ⟨(seats_after hids).shows (injOn_inside hids), inside_iff_lastChangeIsEntry hids, ?_⟩
  rintro before t rest rfl
  rw [List.append_cons] at hids
  exact contains_iff_inside hids.of_append

/-- Two tickets, of which one is turned away at the exit, enters twice and leaves; the room shows
the other one. -/
theorem shows_who_is_inside_two_tickets :
    let a : Ticket := ⟨7, ⟨"udp", "", "a"⟩, "x", .standard⟩
    let b : Ticket := ⟨3, ⟨"udp", "", "a"⟩, "y", .standard⟩
    let visits := [.leave a, .enter a, .enter b, .enter a, .leave a]
    DistinctIds visits ∧ (after visits).reasonCounts = [("y", 1)] ∧
      (after visits).Shows {t | Inside visits t} := by
  intro a b visits
  have hids : DistinctIds visits := by
    simp [DistinctIds, visits, Visit.ticket, a, b]
  exact ⟨hids, by decide +kernel, (shows_who_is_inside visits hids).1⟩

end WaitingRoom

end Admission
