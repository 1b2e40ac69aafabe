import Admission.Proofs.Census
import Admission.Proofs.Handles

/-!
# Every call comes to one end

A call is settled as admitted or as cancelled, or it is given up while it waits, or it waits still.
The answers of a run tell which: each lists the calls that were settled during its step, and a call
was given up if the step that gives it up was answered with success. Put together they leave nothing
out and say nothing twice:

> the calls that wait, those that were settled and those that were given up are all calls, each
> once.

So the numbers add up, and the numbers that a session reports of those who wait, which come from two
different indexes, are the numbers of the calls about which no answer has told an end.
-/

set_option autoImplicit false

namespace Admission

/-! ## What the answers tell -/

/-- The call that the step gives up, if its reply says so. -/
def Step.givesUp? (what : Step) (reply : Reply) : Option Nat :=
  match what, reply with
  | .abandon id, .nothing => some id
  | _, _ => none

/-- The entry that the step calls for. -/
def Step.entry? : Step → Option Entry
  | .wait e _ _ _ _ => some e
  | _ => none

/-- The entries that the steps call for, in order. -/
def Step.entries (steps : List Step) : List Entry := steps.filterMap Step.entry?

/-- The calls that were settled, in order. -/
def settledIn (answers : List Answer) : List Settled := answers.flatMap Answer.settled

/-- The calls that were given up, in order. -/
def givenUpIn (steps : List Step) (answers : List Answer) : List Nat :=
  (steps.zip answers).filterMap fun row => row.1.givesUp? row.2.reply

/-- The calls of which no end is told, in order. -/
def waitingIn (steps : List Step) (answers : List Answer) : List Nat :=
  (List.range (Step.calls steps)).filter fun i =>
    i ∉ (settledIn answers).map Settled.id ∧ i ∉ givenUpIn steps answers

/-- How a call was settled, if it was. -/
def Phase.outcome? : Phase → Option Outcome
  | .admitted _ _ => some .admitted
  | .cancelled => some .cancelled
  | .pending => none
  | .abandoned => none

namespace Session

variable {s s₁ : Session} {what : Step} {events : List Event} {settled : List Settled}
  {givenUp : List Nat}

/-- Of each call of the session it is known whether it was settled or given up. -/
structure Tally (s : Session) (settled : List Settled) (givenUp : List Nat) : Prop where
  all : (s.pendingIds ++ settled.map Settled.id ++ givenUp).Perm (List.range s.waits.size)
  outcome : ∀ e ∈ settled, ∃ w, s.waits[e.id]? = some w ∧ w.phase.outcome? = some e.outcome
  abandoned : ∀ i ∈ givenUp, ∃ w, s.waits[i]? = some w ∧ w.phase = .abandoned
  in_order : settled.Pairwise fun x y => x.clock ≤ y.clock
  clock_le : ∀ e ∈ settled, e.clock ≤ s.clock

theorem pendingIds_push {w : Wait} (hpending : w.phase = .pending)
    (hwaits : s₁.waits = s.waits.push w) : s₁.pendingIds = s.pendingIds ++ [s.waits.size] := by
  have hold : ∀ i ∈ List.range s.waits.size, s₁.waits[i]? = s.waits[i]? := by
    intro i hi
    rw [hwaits, Array.getElem?_push, if_neg (List.mem_range.mp hi).ne]
  have hnew : s₁.waits[s.waits.size]? = some w := by simp [hwaits]
  have hsize : s₁.waits.size = s.waits.size + 1 := by rw [hwaits, Array.size_push]
  rw [pendingIds, hsize, List.range_succ, List.filter_append, pendingIds]
  congr 1
  · exact List.filter_congr fun i hi => by rw [hold i hi]
  · simp [hnew, Wait.isPending, hpending]

theorem pendingIds_of_setPhase {i : Nat} {phase : Phase} (hphase : phase ≠ .pending)
    (hwaits : s₁.waits = (s.setPhase i phase).waits) : s₁.pendingIds = s.pendingIds.erase i := by
  rw [← pendingIds_setPhase hphase]
  simp only [pendingIds, hwaits]

namespace Tally

theorem new (capacity : Capacity) (linger : Span) : Tally (.new capacity linger) [] [] where
  all := .refl _
  outcome _ he := absurd he List.not_mem_nil
  abandoned _ hi := absurd hi List.not_mem_nil
  in_order := .nil
  clock_le _ he := absurd he List.not_mem_nil

/-- A call that waits is not among those that were settled or given up. -/
theorem ne_of_pending (h : s.Tally settled givenUp) {i : Nat} {w : Wait} (hw : s.waits[i]? = some w)
    (hpending : w.phase = .pending) : (∀ e ∈ settled, e.id ≠ i) ∧ ∀ j ∈ givenUp, j ≠ i := by
  constructor
  · rintro e he rfl
    obtain ⟨v, hv, ho⟩ := h.outcome e he
    obtain rfl := Option.some.inj (hw.symm.trans hv)
    rw [hpending] at ho
    cases ho
  · rintro j hj rfl
    obtain ⟨v, hv, hphase⟩ := h.abandoned j hj
    obtain rfl := Option.some.inj (hw.symm.trans hv)
    rw [hpending] at hphase
    cases hphase

theorem mem_pendingIds_iff (h : s.Tally settled givenUp) {i : Nat} :
    i ∈ s.pendingIds ↔ i < s.waits.size ∧ i ∉ settled.map Settled.id ∧ i ∉ givenUp := by
  have hnodup := h.all.nodup_iff.mpr List.nodup_range
  have hmem := h.all.mem_iff (a := i)
  rw [List.append_assoc, List.nodup_append'] at hnodup
  simp only [List.mem_append, List.mem_range] at hmem
  have hdisjoint : i ∈ s.pendingIds → ¬ i ∈ settled.map Settled.id ++ givenUp :=
    fun hi hi' => hnodup.2.2 hi hi'
  rw [List.mem_append] at hdisjoint
  tauto

/-- What has become of a call is what the tally says of it. -/
theorem exists_settled_iff (h : s.Tally settled givenUp) {i : Nat} {o : Outcome} :
    (∃ clock, ⟨i, o, clock⟩ ∈ settled) ↔
      ∃ w, s.waits[i]? = some w ∧ w.phase.outcome? = some o := by
  constructor
  · rintro ⟨clock, he⟩
    exact h.outcome _ he
  · rintro ⟨w, hw, ho⟩
    have hphase : w.phase ≠ .pending ∧ w.phase ≠ .abandoned := by
      constructor
      · intro hpending
        rw [hpending] at ho
        cases ho
      · intro habandoned
        rw [habandoned] at ho
        cases ho
    have hi := h.all.mem_iff.mpr (List.mem_range.mpr (Array.getElem?_eq_some_iff.mp hw).1)
    rw [List.mem_append, List.mem_append] at hi
    rcases hi with (hpending | hsettled) | hgiven
    · obtain ⟨v, hv, hpending⟩ := Session.mem_pendingIds_iff.mp hpending
      obtain rfl := Option.some.inj (hw.symm.trans hv)
      exact absurd hpending hphase.1
    · obtain ⟨⟨id, o', clock⟩, he, rfl⟩ := List.mem_map.mp hsettled
      obtain ⟨v, hv, ho'⟩ := h.outcome _ he
      obtain rfl := Option.some.inj (hw.symm.trans hv)
      obtain rfl : o' = o := Option.some.inj (ho'.symm.trans ho)
      exact ⟨clock, he⟩
    · obtain ⟨v, hv, habandoned⟩ := h.abandoned i hgiven
      obtain rfl := Option.some.inj (hw.symm.trans hv)
      exact absurd habandoned hphase.2

/-! ### What changes the tally

A call that waits is settled or given up, a call is made, or a handle is released or let go. -/

/-- Where the same calls wait, and no end of a call is taken back, the tally stays right. -/
theorem congr (h : s.Tally settled givenUp) (hsize : s₁.waits.size = s.waits.size)
    (hpending : s₁.pendingIds = s.pendingIds)
    (hends : ∀ (i : Nat) (v : Wait), s.waits[i]? = some v → ∃ w, s₁.waits[i]? = some w ∧
      w.phase.outcome? = v.phase.outcome? ∧ (v.phase = .abandoned → w.phase = .abandoned))
    (hclock : s.clock ≤ s₁.clock) : s₁.Tally settled givenUp where
  all := by
    rw [hpending, hsize]
    exact h.all
  outcome e he := by
    obtain ⟨v, hv, ho⟩ := h.outcome e he
    obtain ⟨w, hw, hsame, -⟩ := hends e.id v hv
    exact ⟨w, hw, hsame.trans ho⟩
  abandoned i hi := by
    obtain ⟨v, hv, hphase⟩ := h.abandoned i hi
    obtain ⟨w, hw, -, hsame⟩ := hends i v hv
    exact ⟨w, hw, hsame hphase⟩
  in_order := h.in_order
  clock_le e he := (h.clock_le e he).trans hclock

theorem congr_waits (h : s.Tally settled givenUp) (hwaits : s₁.waits = s.waits)
    (hclock : s.clock ≤ s₁.clock) : s₁.Tally settled givenUp := by
  refine h.congr (by rw [hwaits]) (by simp only [pendingIds, hwaits]) (fun i v hv => ?_) hclock
  exact ⟨v, hwaits ▸ hv, rfl, id⟩

theorem perm_of_end (h : s.Tally settled givenUp) {i : Nat} {w : Wait} {phase : Phase}
    (hw : s.waits[i]? = some w) (hpending : w.phase = .pending) (hphase : phase ≠ .pending)
    (hwaits : s₁.waits = (s.setPhase i phase).waits) :
    (i :: s₁.pendingIds ++ settled.map Settled.id ++ givenUp).Perm (List.range s₁.waits.size) := by
  have hsize : s₁.waits.size = s.waits.size := by
    rw [hwaits]
    exact Array.size_modify
  have hmem : i ∈ s.pendingIds := Session.mem_pendingIds_iff.mpr ⟨w, hw, hpending⟩
  rw [pendingIds_of_setPhase hphase hwaits, hsize]
  exact (((List.perm_cons_erase hmem).symm.append_right _).append_right _).trans h.all

theorem settle (h : s.Tally settled givenUp) {i : Nat} {w : Wait} {o : Outcome}
    (hw : s.waits[i]? = some w) (hpending : w.phase = .pending)
    (hwaits : s₁.waits = (s.setPhase i o.phase).waits) (hclock : s.clock ≤ s₁.clock) :
    s₁.Tally (settled ++ [⟨i, o, s.clock⟩]) givenUp where
  all := by
    have hperm := h.perm_of_end hw hpending (by cases o <;> simp [Outcome.phase]) hwaits
    have hmiddle : (s₁.pendingIds ++ settled.map Settled.id ++ i :: givenUp).Perm
        (i :: (s₁.pendingIds ++ settled.map Settled.id ++ givenUp)) := List.perm_middle
    rw [List.map_append, ← List.append_assoc, List.append_assoc]
    exact hmiddle.trans hperm
  outcome e he := by
    rcases List.mem_append.mp he with he | he
    · obtain ⟨v, hv, ho⟩ := h.outcome e he
      exact ⟨v, getElem?_setPhase_of_ne hwaits ((h.ne_of_pending hw hpending).1 e he) hv, ho⟩
    · obtain rfl := List.mem_singleton.mp he
      exact ⟨_, getElem?_setPhase_self hwaits hw, by cases o <;> rfl⟩
  abandoned j hj := by
    obtain ⟨v, hv, hphase⟩ := h.abandoned j hj
    exact ⟨v, getElem?_setPhase_of_ne hwaits ((h.ne_of_pending hw hpending).2 j hj) hv, hphase⟩
  in_order := by
    refine List.pairwise_append.mpr ⟨h.in_order, List.pairwise_singleton _ _, fun e he e' he' => ?_⟩
    obtain rfl := List.mem_singleton.mp he'
    exact h.clock_le e he
  clock_le e he := by
    rcases List.mem_append.mp he with he | he
    · exact (h.clock_le e he).trans hclock
    · obtain rfl := List.mem_singleton.mp he
      exact hclock

theorem giveUp (h : s.Tally settled givenUp) {i : Nat} {w : Wait} (hw : s.waits[i]? = some w)
    (hpending : w.phase = .pending) (hwaits : s₁.waits = (s.setPhase i .abandoned).waits)
    (hclock : s.clock ≤ s₁.clock) : s₁.Tally settled (givenUp ++ [i]) where
  all := by
    have hperm := h.perm_of_end hw hpending (by simp) hwaits
    refine List.Perm.trans ?_ hperm
    rw [← List.append_assoc]
    exact List.perm_append_singleton i _
  outcome e he := by
    obtain ⟨v, hv, ho⟩ := h.outcome e he
    exact ⟨v, getElem?_setPhase_of_ne hwaits ((h.ne_of_pending hw hpending).1 e he) hv, ho⟩
  abandoned j hj := by
    rcases List.mem_append.mp hj with hj | hj
    · obtain ⟨v, hv, hphase⟩ := h.abandoned j hj
      exact ⟨v, getElem?_setPhase_of_ne hwaits ((h.ne_of_pending hw hpending).2 j hj) hv, hphase⟩
    · obtain rfl := List.mem_singleton.mp hj
      exact ⟨_, getElem?_setPhase_self hwaits hw, rfl⟩
  in_order := h.in_order
  clock_le e he := (h.clock_le e he).trans hclock

theorem call (h : s.Tally settled givenUp) {w : Wait} (hpending : w.phase = .pending)
    (hwaits : s₁.waits = s.waits.push w) (hclock : s.clock ≤ s₁.clock) :
    s₁.Tally settled givenUp where
  all := by
    -- The new number is the last of those who wait, and the last of all.
    rw [pendingIds_push hpending hwaits, hwaits, Array.size_push, List.range_succ,
      List.append_assoc, List.append_assoc, List.singleton_append]
    refine List.perm_middle.trans ?_
    rw [← List.append_assoc]
    exact (h.all.cons _).trans (List.perm_append_singleton _ _).symm
  outcome e he := by
    obtain ⟨v, hv, ho⟩ := h.outcome e he
    exact ⟨v, getElem?_of_push hwaits hv, ho⟩
  abandoned j hj := by
    obtain ⟨v, hv, hphase⟩ := h.abandoned j hj
    exact ⟨v, getElem?_of_push hwaits hv, hphase⟩
  in_order := h.in_order
  clock_le e he := (h.clock_le e he).trans hclock

theorem handle (h : s.Tally settled givenUp) {i : Nat} {w : Wait} {held : Bool}
    {release : Option Release} (hw : s.waits[i]? = some w ∧ w.phase = .admitted true w.release?)
    (hwaits : s₁.waits = (s.setPhase i (.admitted held release)).waits)
    (hclock : s.clock ≤ s₁.clock) : s₁.Tally settled givenUp := by
  obtain ⟨hget, hphase⟩ := hw
  have hnot : i ∉ s.pendingIds := by
    rintro hi
    obtain ⟨v, hv, hpending⟩ := Session.mem_pendingIds_iff.mp hi
    obtain rfl := Option.some.inj (hget.symm.trans hv)
    rw [hphase] at hpending
    cases hpending
  refine h.congr (by rw [hwaits]; exact Array.size_modify) ?_ (fun j v hv => ?_) hclock
  · rw [pendingIds_of_setPhase (by simp) hwaits, List.erase_of_not_mem hnot]
  · by_cases hji : j = i
    · subst hji
      obtain rfl := Option.some.inj (hget.symm.trans hv)
      refine ⟨_, getElem?_setPhase_self hwaits hget, ?_, ?_⟩
      · rw [hphase]
        rfl
      · rw [hphase]
        nofun
    · exact ⟨v, getElem?_setPhase_of_ne hwaits hji hv, rfl, id⟩

end Tally

/-! ## Turns, requests and steps -/

theorem Turn.tally (h : Turn s s₁ events) (hs : s.Orderly) (ht : s.Tally settled givenUp) :
    s₁.Tally (settled ++ events.filterMap Event.settled?) givenUp := by
  have hclock := (h.follows hs).clock_le
  rcases h.waits_cases hs with ⟨hwaits, hnobody⟩ | ⟨i, w, o, hw, hpending, hwaits, hone⟩
  · rw [hnobody, List.append_nil]
    exact ht.congr_waits hwaits hclock
  · rw [hone]
    exact ht.settle hw hpending hwaits hclock

theorem Turns.tally (h : Turns s s₁ events) (hs : s.Orderly) (ht : s.Tally settled givenUp) :
    s₁.Tally (settled ++ events.filterMap Event.settled?) givenUp := by
  induction h generalizing settled with
  | refl s => rwa [List.filterMap_nil, List.append_nil]
  | cons hturn _ ih =>
    rw [List.filterMap_append, ← List.append_assoc]
    exact ih (hturn.replays.orderly hs) (hturn.tally hs ht)

theorem givesUp?_of_handle? {i : Nat} (h : what.handle? = some i) (reply : Reply) :
    what.givesUp? reply = none := by
  cases what with
  | abandon id => cases h
  | _ => rfl

theorem givesUp?_perform (s : Session) (what : Step) (hwhat : ∀ i, what = .abandon i →
    s.pending? i = none) : what.givesUp? (s.perform what).2.1 = none := by
  cases what with
  | abandon id => simp only [perform, hwhat id rfl, Step.givesUp?]
  | _ => rfl

theorem Request.tally (h : Request s what s₁ events) (hs : s.Orderly)
    (ht : s.Tally settled givenUp) :
    s₁.Tally settled (givenUp ++ (what.givesUp? (s.perform what).2.1).toList) := by
  have hclock := h.clock_eq.ge
  rcases h.waits_cases hs with ⟨e, reason, p, token, deadline, rfl, hwaits⟩ |
    ⟨i, w, rfl, hw, hwaits⟩ | ⟨i, w, r, hhandle, hw, -, hwaits⟩ | ⟨-, hwaits, habandon, -⟩
  · rw [givesUp?_perform s _ (by simp), Option.toList_none, List.append_nil]
    exact ht.call rfl hwaits hclock
  · have hgives : (Step.abandon i).givesUp? (s.perform (.abandon i)).2.1 = some i := by
      simp only [perform, hw, Step.givesUp?]
    obtain ⟨hget, hpending⟩ := getElem?_of_pending? hw
    rw [hgives]
    exact ht.giveUp hget hpending hwaits hclock
  · rw [givesUp?_of_handle? hhandle, Option.toList_none, List.append_nil]
    exact ht.handle (getElem?_of_held? hw) hwaits hclock
  · rw [givesUp?_perform s what habandon, Option.toList_none, List.append_nil]
    exact ht.congr_waits hwaits hclock

theorem tally_step (hs : s.Orderly) (ht : s.Tally settled givenUp) (what : Step) :
    (s.step what).1.Tally (settled ++ (s.step what).2.settled)
      (givenUp ++ (what.givesUp? (s.step what).2.reply).toList) := by
  obtain ⟨s₁, told, later, hrequest, hturns, hevents⟩ := turns_step hs what
  have hsettled : (s.step what).2.settled = later.filterMap Event.settled? := by
    rw [Answer.settled, hevents, List.filterMap_append, hrequest.settles_nobody, List.nil_append]
  rw [hsettled]
  exact hturns.tally (hrequest.replays.orderly hs) (hrequest.tally hs ht)

theorem tally_run (capacity : Capacity) (linger : Span) (steps : List Step) :
    let r := (Session.new capacity linger).run steps
    r.1.Tally (settledIn r.2) (givenUpIn steps r.2) := by
  refine run_induction (P := fun steps answers s => s.Tally (settledIn answers)
    (givenUpIn steps answers)) (.new capacity linger) ?_ steps
  intro steps what r hs ht
  have hgiven : givenUpIn (steps ++ [what]) (r.2 ++ [(r.1.step what).2]) =
      givenUpIn steps r.2 ++ (what.givesUp? (r.1.step what).2.reply).toList := by
    rw [givenUpIn, List.zip_append (length_answers _ steps).symm, List.filterMap_append]
    rfl
  rw [hgiven, settledIn, List.flatMap_append, List.flatMap_singleton]
  exact tally_step hs ht what

/-! ## Those who wait

A session reports how many wait, and how many wait for an entry, from two indexes of its waiting
room. Both count the calls that wait. -/

end Session

namespace Ledger

theorem Sound.injOn_place {l : Ledger} (h : l.Sound) {p : Place} (hp : p ≠ .nowhere) :
    Set.InjOn Ticket.id {t | l.place t = p} := fun t ht u hu hid => by
  have hplace : l.place u = p := hu
  have hknown : u ∈ l.tickets := h.known u (by rw [hplace]; exact hp)
  exact h.eq_of_place hknown hp t ht hid

theorem Accounts.mem_pendingIds_iff {l : Ledger} {s : Session} (h : l.Accounts s) (i : Nat) :
    i ∈ s.pendingIds ↔ ∃ t ∈ {t | l.place t = .waiting}, t.id = i := by
  rw [Session.mem_pendingIds_iff]
  constructor
  · rintro ⟨w, hw, hpending⟩
    exact ⟨w.ticket, (h.place_eq_waiting_iff hw).mpr hpending, h.id_eq hw⟩
  · rintro ⟨t, ht, rfl⟩
    have hplace : l.place t = .waiting := ht
    obtain ⟨w, hw, rfl⟩ := h.exists_wait (t := t) (by simp [hplace])
    exact ⟨w, hw, (h.place_eq_waiting_iff hw).mp hplace⟩

end Ledger

namespace Session

variable {s : Session}

theorem size_waiting (hs : s.Orderly) : s.controller.waiting.size = s.pendingIds.length := by
  obtain ⟨l, hl⟩ := hs
  have hinj := hl.sound.injOn_place (p := .waiting) (by decide)
  rw [← hl.controller, WaitingRoom.size, ← Ids.ncard_eq_size hinj hl.sound.waiting.mem_members_iff]
  exact ncard_eq_length hinj s.nodup_pendingIds hl.mem_pendingIds_iff

/-- Those who wait under a key are the calls that wait with it. -/
theorem ncard_waiting_eq {l : Ledger} (hl : l.Accounts s) {κ : Type} [DecidableEq κ]
    (key : Ticket → κ) (k : κ) :
    {t ∈ {t | l.place t = .waiting} | key t = k}.ncard =
      s.pendingIds.countP fun i => s.waits[i]?.map (fun w => key w.ticket) = some k := by
  have hinj := hl.sound.injOn_place (p := .waiting) (by decide)
  rw [List.countP_eq_length_filter]
  refine ncard_eq_length (hinj.mono (Set.sep_subset _ _)) (s.nodup_pendingIds.filter _) fun i => ?_
  rw [List.mem_filter, hl.mem_pendingIds_iff, decide_eq_true_eq]
  have hticket : ∀ t ∈ {t | l.place t = .waiting},
      s.waits[t.id]?.map (fun w => key w.ticket) = some k ↔ key t = k := by
    intro t ht
    have hplace : l.place t = .waiting := ht
    obtain ⟨w, hw, hwt⟩ := hl.exists_wait (t := t) (by simp [hplace])
    rw [hw, Option.map_some, Option.some.injEq, hwt]
  constructor
  · rintro ⟨⟨t, ht, rfl⟩, hkey⟩
    exact ⟨t, ⟨ht, (hticket t ht).mp hkey⟩, rfl⟩
  · rintro ⟨t, ⟨ht, hkey⟩, rfl⟩
    exact ⟨⟨t, ht, rfl⟩, (hticket t ht).mpr hkey⟩

theorem waitingFor_eq (hs : s.Orderly) (e : Entry) :
    s.controller.waiting.waitingFor e =
      s.pendingIds.countP fun i => s.waits[i]?.map (·.ticket.entry) = some e := by
  obtain ⟨l, hl⟩ := hs
  have hinj := hl.sound.injOn_place (p := .waiting) (by decide)
  rw [← hl.controller, WaitingRoom.waitingFor, hl.sound.waiting.byEntry.count_eq_ncard hinj]
  exact ncard_waiting_eq hl Ticket.entry e

/-! ## The whole tally -/

variable {capacity : Capacity} {linger : Span} {steps : List Step}

theorem waitingIn_eq (capacity : Capacity) (linger : Span) (steps : List Step) :
    let r := (Session.new capacity linger).run steps
    waitingIn steps r.2 = r.1.pendingIds := by
  intro r
  have htally := tally_run capacity linger steps
  have hsize : r.1.waits.size = Step.calls steps := size_waits_run steps
  rw [waitingIn, pendingIds, ← hsize]
  refine List.filter_congr fun i hi => Bool.eq_iff_iff.mpr ?_
  have hmem : i ∈ r.1.pendingIds ↔ _ := List.mem_filter.trans (and_iff_right hi)
  rw [decide_eq_true_eq, ← hmem, htally.mem_pendingIds_iff, and_iff_right (List.mem_range.mp hi)]

theorem length_entries (steps : List Step) : (Step.entries steps).length = Step.calls steps := by
  rw [Step.entries, List.length_filterMap_eq_countP, Step.calls]
  refine List.countP_congr fun what _ => ?_
  rw [decide_eq_true_eq]
  cases what with
  | wait => exact iff_of_true rfl trivial
  | _ => exact iff_of_false Bool.false_ne_true id

/-- The entry of a call is the one that its step names. -/
theorem entry_of_run {i : Nat} {w : Wait}
    (hw : ((Session.new capacity linger).run steps).1.waits[i]? = some w) :
    (Step.entries steps)[i]? = some w.ticket.entry := by
  obtain ⟨before, e, reason, p, token, d, later, rfl, rfl, hcall⟩ := called_of_run hw
  rw [hcall, Step.entries, List.filterMap_append, ← length_entries]
  exact List.getElem?_append_right le_rfl |>.trans (by simp [Step.entry?, newWait])

theorem reply_view (s : Session) (i : Nat) :
    (∃ v, (s.step (.view i)).2.reply = .handle v) ↔ s.Held i := by
  simp only [step, perform, withHandle, Held, ← held?_eq_some_iff]
  cases s.held? i with
  | none => simp
  | some w => simp

theorem counts_step (s : Session) (what : Step) :
    (s.step what).2.numEntries = (s.step what).1.controller.numEntries ∧
      (s.step what).2.numWaiting = (s.step what).1.controller.waiting.size ∧
      (s.step what).2.numHolders = (s.step what).1.controller.numHolders := by
  simp only [step, and_self]

/-- The last answer counts what there is after it. -/
theorem counts_of_getLast? {s : Session} {a : Answer} (ha : (s.run steps).2.getLast? = some a) :
    a.numEntries = (s.run steps).1.controller.numEntries ∧
      a.numWaiting = (s.run steps).1.controller.waiting.size ∧
      a.numHolders = (s.run steps).1.controller.numHolders := by
  rcases List.eq_nil_or_concat steps with rfl | ⟨before, what, rfl⟩
  · cases ha
  · rw [List.concat_eq_append, run_concat, List.getLast?_concat] at ha
    obtain rfl := Option.some.inj ha
    rw [List.concat_eq_append, run_concat]
    exact counts_step _ what

/-- **Every call comes to one end, and nothing is lost.** In every run no call is settled twice, and
none that is given up, and the clocks of what was settled do not go back. The calls are those that
wait, that were admitted, that were cancelled and that were given up. The number of those who wait
is the one that the session reports, in its status and with its last answer, and for each entry it
tells how many wait for it. And a caller is shown its handle exactly if its call was settled as
admitted and it has neither dropped nor lost the handle since. -/
theorem every_call_comes_to_one_end (capacity : Capacity) (linger : Span) (steps : List Step) :
    let r := (Session.new capacity linger).run steps
    let settled := settledIn r.2
    let waiting := waitingIn steps r.2
    (settled.map Settled.id ++ givenUpIn steps r.2).Nodup ∧
      settled.Pairwise (fun x y => x.clock ≤ y.clock) ∧
      Step.calls steps = waiting.length + settled.countP (fun e => e.outcome = .admitted) +
        settled.countP (fun e => e.outcome = .cancelled) + (givenUpIn steps r.2).length ∧
      r.1.status.numWaiting = waiting.length ∧
      (∀ a, r.2.getLast? = some a → a.numWaiting = waiting.length) ∧
      (∀ e, (r.1.step (.waitingFor e)).2.reply =
        .count (waiting.countP fun i => (Step.entries steps)[i]? = some e)) ∧
      ∀ id, (∃ v, (r.1.step (.view id)).2.reply = .handle v) ↔ HasHandle steps r.2 id := by
  intro r settled waiting
  have hs : r.1.Orderly := (orderly_new capacity linger).run steps
  have htally : r.1.Tally settled (givenUpIn steps r.2) := tally_run capacity linger steps
  have hwaiting : waiting = r.1.pendingIds := waitingIn_eq capacity linger steps
  have hsize : r.1.controller.waiting.size = waiting.length := by rw [size_waiting hs, hwaiting]
  refine ⟨?_, htally.in_order, ?_, hsize, ?_, fun e => ?_, fun id => ?_⟩
  · have hnodup := htally.all.nodup_iff.mpr List.nodup_range
    rw [List.append_assoc] at hnodup
    exact (List.nodup_append'.mp hnodup).2.1
  · have hlength := htally.all.length_eq
    have hcalls : r.1.waits.size = Step.calls steps := size_waits_run steps
    have hsum : settled.length = settled.countP (fun e => e.outcome = .admitted) +
        settled.countP (fun e => e.outcome = .cancelled) := by
      rw [List.length_eq_countP_add_countP fun e => decide (e.outcome = .admitted)]
      refine congrArg _ (List.countP_congr fun e _ => ?_)
      cases e.outcome <;> simp
    simp only [List.length_append, List.length_map, List.length_range] at hlength
    rw [hwaiting, ← hcalls]
    omega
  · intro a ha
    rw [← hsize]
    exact (counts_of_getLast? ha).2.1
  · have hcount : (r.1.step (.waitingFor e)).2.reply =
        .count (r.1.controller.waiting.waitingFor e) := rfl
    rw [hcount, waitingFor_eq hs, hwaiting]
    refine congrArg Reply.count (List.countP_congr fun i hi => ?_)
    obtain ⟨w, hw, -⟩ := mem_pendingIds_iff.mp hi
    rw [entry_of_run hw, hw, Option.map_some]
  · rw [reply_view]
    exact held_run_iff capacity linger steps id

end Session

end Admission
