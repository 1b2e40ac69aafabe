import Admission.Proofs.Countdown

/-!
# Every flow is accounted for

A race ends in one of two ways. If nobody waits and nobody keeps a slot, all flows are finished, and
the report counts each of them once. Otherwise no clock lies ahead, and then it can be said why:

> whoever waits has no deadline, there is no room, and each entry is kept by a release that never
> frees it.

For as long as an entry is kept by a flow that has not released it, or by a linger that ends, there
is a clock at which this happens. The simulation itself is one of the races: at each clock it does,
in an order of its own, what a race may do in any order.
-/

set_option autoImplicit false

namespace Admission.Simulation

open Session

variable {settings : Settings} {o : Options} {p p' : Progress} {i : Nat} {w : Wait}

/-! ## The two ends -/

/-- The report accounts for all flows. -/
structure Accounted (settings : Settings) (o : Options) (r : Report) : Prop where
  total : r.admitted + r.cancelled = o.flows
  /-- Without a deadline nobody is cancelled. -/
  cancelled : o.deadline = none → r.cancelled = 0
  nobody_waits : r.final.numWaiting = 0 ∧ r.final.waitingByReason = []
  within : ∀ m, settings.capacity = .limited m →
    r.running.numEntries ≤ m.toNat ∧ r.final.numEntries ≤ m.toNat

/-- The simulation stands still: no timer runs and no flow is late or keeps a slot, there was no
deadline, and somebody waits. -/
structure Stuck (settings : Settings) (o : Options) (p : Progress) : Prop where
  late : p.late = []
  holds : p.holds = []
  timers : p.session.timers = []
  deadline : o.deadline = none
  waits : ∃ (i : Nat) (w : Wait), p.session.waits[i]? = some w ∧ w.phase = .pending
  /-- There is no room. With one slot at least, the linger goes beyond the last instant. -/
  full : ∃ m, settings.capacity = .limited m ∧ m.toNat ≤ p.session.controller.numEntries ∧
    (m.toNat = 0 ∨ instantAfter p.session.now settings.linger = none)
  /-- Each entry is kept by a release that never frees it. -/
  kept : ∀ e, p.session.controller.isOccupied e = true →
    ∃ (i : Nat) (w : Wait), p.session.waits[i]? = some w ∧ w.ticket.entry = e ∧
      p.session.controller.holds w.ticket = true ∧ w.release? = some .endless

theorem length_filter_add {α : Type} {f g : α → Bool} {l : List α} (h : ∀ a ∈ l, g a = !f a) :
    (l.filter f).length + (l.filter g).length = l.length := by
  rw [List.filter_congr h]
  exact (List.length_eq_length_filter_add f).symm

theorem reasonCounts_of_nobody {s : Session} (hs : s.Orderly) (hnobody : s.pendingIds = []) :
    s.controller.waiting.reasonCounts = [] := by
  obtain ⟨l, hl⟩ := hs
  have hinj := hl.sound.injOn_place (p := .waiting) (by decide)
  refine List.eq_nil_iff_forall_not_mem.mpr fun row hrow => ?_
  rw [← hl.controller] at hrow
  obtain ⟨hcount, hpos⟩ := (hl.sound.waiting.byReason.mem_counts_iff hinj _ _).mp hrow
  rw [ncard_waiting_eq hl Ticket.reason, hnobody] at hcount
  exact absurd hcount hpos.ne'

theorem Keeps.phase_of_finished (h : Keeps settings o p) (hfinished : p.allFinished = true)
    (hw : p.session.waits[i]? = some w) :
    (w.phase = .cancelled ∧ o.deadline.isSome = true) ∨
      ∃ r, w.phase = .admitted true (some r) := by
  simp only [Progress.allFinished, Bool.and_eq_true, List.isEmpty_iff] at hfinished
  obtain ⟨⟨-, hnobody⟩, hholds⟩ := hfinished
  rcases (h.serves.flows i w hw).phase with hpending | hcancelled | ⟨release, hadmitted⟩
  · have hin := mem_pendingIds_iff.mpr ⟨w, hw, hpending⟩
    rw [hnobody] at hin
    cases hin
  · exact Or.inl hcancelled
  · cases release with
    | some r => exact Or.inr ⟨r, hadmitted⟩
    | none =>
      have hin := (h.holds i).mpr ⟨w, hw, hadmitted⟩
      rw [hholds] at hin
      cases hin

/-- **A simulation that is over accounts for all flows.** -/
theorem Keeps.accounted (h : Keeps settings o p) {r : Report} (hr : p.Reports r) :
    Accounted settings o r := by
  obtain ⟨hfinished, running, hrunning, rfl⟩ := hr
  have hphase : ∀ w ∈ p.session.waits.toList, (w.phase = .cancelled ∧ o.deadline.isSome = true) ∨
      ∃ r, w.phase = .admitted true (some r) := by
    intro w hw
    obtain ⟨i, hi⟩ := Array.mem_iff_getElem?.mp (Array.mem_toList_iff.mp hw)
    exact h.phase_of_finished hfinished hi
  have hends := hfinished
  simp only [Progress.allFinished, Bool.and_eq_true, List.isEmpty_iff] at hends
  obtain ⟨⟨hlate, hnobody⟩, -⟩ := hends
  refine ⟨?_, ?_, ?_, fun m hm => ⟨h.seen running hrunning m hm, h.serves.within m hm⟩⟩
  · have hsize := h.size
    rw [hlate, List.length_nil, Nat.add_zero, ← Array.length_toList] at hsize
    rw [← hsize]
    refine length_filter_add fun w hw => ?_
    rcases hphase w hw with ⟨hcancelled, -⟩ | ⟨r, hadmitted⟩
    · simp [hcancelled]
    · simp [hadmitted]
  · intro hdeadline
    rw [Progress.report, Progress.numCancelled, List.length_eq_zero_iff, List.filter_eq_nil_iff]
    intro w hw
    rcases hphase w hw with ⟨-, hsome⟩ | ⟨r, hadmitted⟩
    · rw [hdeadline] at hsome
      cases hsome
    · simp [hadmitted]
  · refine ⟨?_, reasonCounts_of_nobody h.serves.orderly hnobody⟩
    show p.session.controller.waiting.size = 0
    rw [size_waiting h.serves.orderly, hnobody]
    rfl

/-- An entry whose holder was released, and for which no timer runs, is kept for ever. -/
theorem Keeps.release_eq_endless (h : Keeps settings o p) (hholds : p.holds = [])
    (htimers : p.session.timers = []) (hw : p.session.waits[i]? = some w)
    (hin : p.session.controller.holds w.ticket = true) : w.release? = some .endless := by
  obtain ⟨held, release, hphase⟩ := admitted_of_holds h.serves.orderly hw hin
  have hrelease : w.release? = release := by rw [Wait.release?, hphase]
  rcases release with _ | (⟨announced, freed⟩ | _)
  · obtain hpending | ⟨hcancelled, -⟩ | ⟨release', hadmitted⟩ := (h.serves.flows i w hw).phase
    · rw [hphase] at hpending
      cases hpending
    · rw [hphase] at hcancelled
      cases hcancelled
    · rw [hphase] at hadmitted
      obtain ⟨rfl, rfl⟩ := Phase.admitted.inj hadmitted
      have hkeeps := (h.holds i).mpr ⟨w, hw, hphase⟩
      rw [hholds] at hkeeps
      cases hkeeps
  · have htimer : p.session.timer? w = some freed := by
      rw [timer?, if_neg (by simp [Wait.isPending, hphase])]
      exact lingerEnd?_eq_some_iff.mpr ⟨hin, announced, hrelease⟩
    have hmem := mem_timers_iff.mpr ⟨i, w, hw, htimer⟩
    rw [htimers] at hmem
    cases hmem
  · exact hrelease

/-- **A race that cannot go on and is not over stands still for want of room.** -/
theorem Race.stuck {n : Nat} (h : Race settings o n p) (hgoes : ∀ r, ¬ p.Reports r)
    (hnone : p.nextClock? o = none) : Stuck settings o p := by
  have hkeeps := h.keeps
  have hquiet := h.quiet
  have hnever := nextClock?_eq_none_iff.mp hnone
  have hlate : p.late = [] := by
    by_contra hlate
    exact hnever _ (.late hlate)
  have hholds : p.holds = [] := List.eq_nil_iff_forall_not_mem.mpr fun _ hin => hnever _ (.hold hin)
  have htimers : p.session.timers = [] :=
    List.eq_nil_iff_forall_not_mem.mpr fun _ hin => hnever _ (.timer hin)
  obtain ⟨running, hrunning⟩ := Option.isSome_iff_exists.mp
    (h.running (not_lt.mp fun hahead => hnever _ (.half hahead)))
  -- The status was taken, so it is not over because somebody waits.
  have hwaits : ∃ (i : Nat) (w : Wait), p.session.waits[i]? = some w ∧ w.phase = .pending := by
    by_contra hnobody
    refine hgoes _ ⟨?_, running, hrunning, rfl⟩
    have hpending : p.session.pendingIds = [] := List.eq_nil_iff_forall_not_mem.mpr fun i hi =>
      hnobody ⟨i, mem_pendingIds_iff.mp hi⟩
    simp [Progress.allFinished, hlate, hholds, hpending]
  have hkept : ∀ e, p.session.controller.isOccupied e = true →
      ∃ (i : Nat) (w : Wait), p.session.waits[i]? = some w ∧ w.ticket.entry = e ∧
        p.session.controller.holds w.ticket = true ∧ w.release? = some .endless := by
    intro e he
    obtain ⟨i, hi⟩ := (isOccupied_iff_exists_mem hkeeps.serves.orderly).mp he
    obtain ⟨w, hw, hentry, hin⟩ := (mem_ids_iff_holds hkeeps.serves.orderly).mp hi
    exact ⟨i, w, hw, hentry, hin, hkeeps.release_eq_endless hholds htimers hw hin⟩
  refine ⟨hlate, hholds, htimers, ?_, hwaits, ?_, hkept⟩
  · -- With a deadline its timer would run for whoever waits.
    obtain ⟨i, w, hw, hpending⟩ := hwaits
    by_contra hsome
    have hdeadline : w.deadline.isSome = true := by
      rw [(hkeeps.serves.flows i w hw).deadline]
      exact Option.isSome_iff_ne_none.mpr hsome
    obtain ⟨D, hD⟩ := Option.isSome_iff_exists.mp hdeadline
    have htimer : p.session.timer? w = some (timerEnd (instantOfMillis w.startedAt) D) := by
      rw [timer?, if_pos (Wait.isPending_iff.mpr hpending), Wait.deadlineEnd?, hD]
      rfl
    have hmem := mem_timers_iff.mpr ⟨i, w, hw, htimer⟩
    rw [htimers] at hmem
    cases hmem
  · obtain ⟨i, w, hw, hpending⟩ := hwaits
    obtain ⟨l, hl⟩ := id hkeeps.serves.orderly
    obtain ⟨m, hm, hfull⟩ := hquiet.rests.isFull hl hw hpending
    rw [hkeeps.serves.capacity] at hm
    refine ⟨m, hm, hfull, ?_⟩
    by_cases hzero : m.toNat = 0
    · exact Or.inl hzero
    · -- An entry is occupied, and whoever keeps it has released it with this linger.
      have hentries : 0 < p.session.controller.numEntries := by omega
      rw [← hl.controller] at hentries
      obtain ⟨t, ht⟩ := hl.sound.exists_holder hentries
      have hoccupied := (hl.sound.isOccupied_iff t.entry).mpr ⟨t, ht, rfl⟩
      rw [hl.controller] at hoccupied
      obtain ⟨j, v, hv, -, -, hendless⟩ := hkept t.entry hoccupied
      have hbeyond := (hkeeps.serves.flows j v hv).endless hendless
      exact Or.inr (if_neg (not_lt.mpr hbeyond))

end Admission.Simulation
