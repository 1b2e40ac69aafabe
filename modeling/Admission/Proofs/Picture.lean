import Admission.Proofs.Occupancy
import Admission.Proofs.Visits

/-!
# What a status shows

A status is put together from four collections of the controller and from what the session knows of
its calls. That the parts agree is not a matter of how a status is made, but of the collections:
each is an index, and two of them stand for the same tickets, those who wait or those who hold.

> every row is the row of one ticket that holds its entry, every such ticket has a row, and the rows
> come in the order of the entries and of the calls.

The times in a row are told by the history: by the step that made the call and by the one that
released its handle. A status may be taken at any moment of a step; only that the times that are
left are not over has to wait until the session has settled.
-/

set_option autoImplicit false

namespace Admission

/-! ## The order of the rows -/

/-- The order of entries: field by field, each by its bytes. -/
def Entry.Precedes (a b : Entry) : Prop :=
  Text.bytes a.protocol < Text.bytes b.protocol ∨ a.protocol = b.protocol ∧
    (Text.bytes a.localAddr < Text.bytes b.localAddr ∨ a.localAddr = b.localAddr ∧
      Text.bytes a.remoteAddr < Text.bytes b.remoteAddr)

theorem Entry.precedes_of_compare {a b : Entry} (h : compare a b = .lt) : a.Precedes b := by
  have hthen : (compare a.protocol b.protocol).then ((compare a.localAddr b.localAddr).then
      (compare a.remoteAddr b.remoteAddr)) = .lt := h
  simp only [Ordering.then_eq_lt, Text.compare_eq_lt_iff,
    Std.LawfulEqCmp.compare_eq_iff_eq] at hthen
  exact hthen

/-! ## The order of the calls -/

namespace Session

variable {s s₁ m : Session} {what : Step} {capacity : Capacity} {linger : Span} {steps : List Step}

/-- The calls are written down in the order in which they were made. -/
def Dated (s : Session) : Prop :=
  ∀ (i j : Nat) (v w : Wait), s.waits[i]? = some v → s.waits[j]? = some w → i ≤ j →
    v.startedAt ≤ w.startedAt ∧ w.startedAt ≤ s.clock

theorem dated_new (capacity : Capacity) (linger : Span) : (new capacity linger).Dated := by
  intro i j v w hv
  simp [new] at hv

theorem invariant_dated : Invariant Dated where
  request h hs hdated i j v w hv hw hij := by
    rw [h.clock_eq]
    rcases h.before_or_new hs hw with ⟨w', hw', hsame⟩ | ⟨_, _, _, _, _, -, rfl, rfl⟩
    · rcases h.before_or_new hs hv with ⟨v', hv', hsame'⟩ | ⟨_, _, _, _, _, -, rfl, -⟩
      · rw [hsame, hsame']
        exact hdated i j v' w' hv' hw' hij
      · -- The new call has the highest number.
        exact absurd (Array.getElem?_eq_some_iff.mp hw').1 (not_lt.mpr hij)
    · -- The new call is made now.
      refine ⟨?_, le_rfl⟩
      rcases h.before_or_new hs hv with ⟨v', hv', hsame'⟩ | ⟨_, _, _, _, _, -, -, rfl⟩
      · rw [hsame']
        exact (hdated i i v' v' hv' hv' le_rfl).2
      · exact le_rfl
  turn h hs hdated i j v w hv hw hij := by
    have hfollows := h.follows hs
    obtain ⟨v', hv', hv_becomes⟩ := hfollows.exists_before hv
    obtain ⟨w', hw', hw_becomes⟩ := hfollows.exists_before hw
    have hbefore := hdated i j v' w' hv' hw' hij
    rw [hv_becomes.sameCall, hw_becomes.sameCall]
    exact ⟨hbefore.1, hbefore.2.trans hfollows.clock_le⟩

/-! ## A row -/

/-- What the row of a call says. -/
structure Row (s₀ : Session) (steps : List Step) (s : Session) (i : Nat) (h : Holder) : Prop where
  /-- The call was made by a step of the run, which named the entry and the reason, and its age is
  the time since then. -/
  call : ∃ w, s.waits[i]? = some w ∧ Called s₀ steps i w ∧ s.controller.holds w.ticket = true ∧
    h.entry = w.ticket.entry ∧ h.reason = w.ticket.reason ∧
    h.age.nanos + instantOfMillis w.startedAt = s.now
  held : h.expiresIn = none ↔ ∀ clock L, ¬ ReleasedAt s₀ steps i clock L
  endless : ∀ clock L, ReleasedAt s₀ steps i clock L →
    instantBound ≤ instantOfMillis clock + L.nanos → h.expiresIn = some Span.longest
  ends : ∀ clock L, ReleasedAt s₀ steps i clock L → instantOfMillis clock + L.nanos < instantBound →
    h.expiresIn = some ⟨instantOfMillis clock + L.nanos - s.now⟩

/-- The row of the call `i` stands before that of the call `j`. -/
def RowBefore (s : Session) (i j : Nat) : Prop :=
  ∀ v w, s.waits[i]? = some v → s.waits[j]? = some w →
    v.ticket.entry.Precedes w.ticket.entry ∨
      v.ticket.entry = w.ticket.entry ∧ v.startedAt ≤ w.startedAt ∧ i < j

/-- The call's row at a moment up to the end of the run. -/
theorem row_holderOf (hdated : s.Dated) (hfollows : Follows s ((new capacity linger).run steps).1)
    {i : Nat} {w : Wait} (hw : s.waits[i]? = some w) (hholds : s.controller.holds w.ticket = true) :
    Row (new capacity linger) steps s i (s.holderOf w) := by
  obtain ⟨w', hw', hbecomes⟩ := hfollows.waits i w hw
  have hcalled := (called_of_run hw').sameCall hbecomes.sameCall.symm
  have hreleased : ∀ r, w.release? = some r ↔ ∃ what clock L,
      ReleasedBy (new capacity linger) steps i what clock L ∧ r = releaseAt clock what.sleep L := by
    intro r
    rw [← releaseOf?_run_iff, hfollows.releaseOf?_eq, releaseOf?_eq hw]
  have hexpires : ∀ {clock L}, ReleasedAt (new capacity linger) steps i clock L →
      ∃ sleep, (s.holderOf w).expiresIn = some (s.timeLeft (releaseAt clock sleep L)) := by
    rintro clock L ⟨what, h⟩
    refine ⟨what.sleep, ?_⟩
    rw [holderOf, (hreleased _).mpr ⟨what, clock, L, h, rfl⟩, Option.map_some]
  refine ⟨⟨w, hw, hcalled, hholds, rfl, rfl, ?_⟩, ?_, fun clock L h hout => ?_,
    fun clock L h hin => ?_⟩
  · exact Nat.sub_add_cancel (instantOfMillis_mono (hdated i i w w hw hw le_rfl).2)
  · constructor
    · intro hnone clock L h
      obtain ⟨sleep, hsome⟩ := hexpires h
      rw [hsome] at hnone
      cases hnone
    · intro hnone
      rw [holderOf, Option.map_eq_none_iff, Option.eq_none_iff_forall_ne_some]
      intro r hr
      obtain ⟨what, clock, L, h, -⟩ := (hreleased r).mp hr
      exact hnone clock L ⟨what, h⟩
  · obtain ⟨sleep, hsome⟩ := hexpires h
    rw [hsome, releaseAt, instantAfter, if_neg (not_lt.mpr hout)]
    rfl
  · obtain ⟨sleep, hsome⟩ := hexpires h
    rw [hsome, releaseAt, instantAfter, if_pos hin]
    rfl

/-! ## All rows -/

theorem holds_of_mem_holderIds {l : Ledger} (hl : l.Accounts s) {i : Nat} (hi : i ∈ s.holderIds) :
    ∃ w, s.waits[i]? = some w ∧ s.controller.holds w.ticket = true := by
  have hlisted : i ∈ l.controller.occupancy.listing := by
    rw [hl.controller]
    exact hi
  exact (hl.exists_holding_iff i).mp ((hl.sound.holding.mem_listing_iff i).mp hlisted)

/-- Row by row the holders are those that the list of their numbers names. -/
theorem forall₂_holders {l : Ledger} (hl : l.Accounts s) :
    List.Forall₂ (fun i h => ∃ w, s.waits[i]? = some w ∧ s.controller.holds w.ticket = true ∧
      h = s.holderOf w) s.holderIds s.status.holders := by
  have hall : ∀ ids : List Nat, (∀ i ∈ ids, i ∈ s.holderIds) →
      List.Forall₂ (fun i h => ∃ w, s.waits[i]? = some w ∧ s.controller.holds w.ticket = true ∧
        h = s.holderOf w) ids (ids.filterMap fun id => s.waits[id]?.map s.holderOf) := by
    intro ids
    induction ids with
    | nil => exact fun _ => .nil
    | cons i ids ih =>
      intro hmem
      obtain ⟨w, hw, hholds⟩ := holds_of_mem_holderIds hl (hmem i List.mem_cons_self)
      rw [List.filterMap_cons_some (by rw [hw, Option.map_some])]
      exact .cons ⟨w, hw, hholds, rfl⟩ (ih fun j hj => hmem j (List.mem_cons_of_mem i hj))
  exact hall s.holderIds fun _ hi => hi

theorem rowBefore_holderIds {l : Ledger} (hl : l.Accounts s) (hdated : s.Dated) :
    s.holderIds.Pairwise s.RowBefore := by
  have hentry : ∀ {i : Nat} {e : Entry} {w : Wait}, i ∈ s.controller.occupancy.ids e →
      s.waits[i]? = some w → w.ticket.entry = e := by
    intro i e w hi hw
    rw [← hl.controller] at hi
    obtain ⟨t, ht, rfl, rfl⟩ := (hl.sound.holding.mem_ids_iff e i).mp hi
    obtain ⟨w', hw', rfl⟩ := hl.exists_wait_of_holding ht
    rw [Option.some.inj (hw.symm.trans hw')]
  refine (Buckets.pairwise_listing s.controller.occupancy).imp ?_
  rintro i j ⟨e, e', hi, hj, horder⟩ v w hv hw
  rw [hentry hi hv, hentry hj hw]
  rcases horder with hlt | ⟨rfl, hlt⟩
  · exact Or.inl (Entry.precedes_of_compare hlt)
  · exact Or.inr ⟨rfl, (hdated i j v w hv hw hlt.le).1, hlt⟩

theorem mem_holders_iff {h : Holder} :
    h ∈ s.status.holders ↔ ∃ i ∈ s.holderIds, ∃ w, s.waits[i]? = some w ∧ s.holderOf w = h := by
  simp only [status, List.mem_filterMap, Option.map_eq_some_iff]

/-- The entries that are occupied are those that the rows name. -/
theorem numEntries_eq_length_dedup {l : Ledger} (hl : l.Accounts s) :
    s.controller.numEntries = (s.status.holders.map Holder.entry).dedup.length := by
  rw [← List.card_toFinset, ← Set.ncard_coe_finset, ← hl.controller, Controller.numEntries,
    hl.sound.holding.size_eq_ncard]
  refine congrArg Set.ncard (Set.ext fun e => ?_)
  simp only [Set.mem_image, List.coe_toFinset, List.mem_map]
  constructor
  · rintro ⟨t, ht, rfl⟩
    obtain ⟨w, hw, rfl⟩ := hl.exists_wait_of_holding ht
    have hlisted := (hl.sound.holding.mem_listing_iff w.ticket.id).mpr ⟨w.ticket, ht, rfl⟩
    rw [hl.controller] at hlisted
    exact ⟨s.holderOf w, mem_holders_iff.mpr ⟨_, hlisted, w, hw, rfl⟩, rfl⟩
  · rintro ⟨h, hh, rfl⟩
    obtain ⟨i, hi, w, hw, rfl⟩ := mem_holders_iff.mp hh
    obtain ⟨w', hw', hholds⟩ := holds_of_mem_holderIds hl hi
    obtain rfl := Option.some.inj (hw.symm.trans hw')
    exact ⟨w.ticket, (hl.place_eq_holding_iff (hl.mem_tickets hw)).mpr hholds, rfl⟩

end Session

/-! ## The whole status -/

/-- What a status says of a session that the steps have led to. -/
structure Status.Pictures (st : Status) (s₀ : Session) (steps : List Step)
    (s : Session) : Prop where
  /-- The entries are counted that the rows name. -/
  numEntries : st.numEntries = (st.holders.map Holder.entry).dedup.length
  /-- There is a row for every ticket that stands under an entry, and only one; the rows come in the
  order of the entries, and for each entry in the order of the calls. -/
  rows : ∃ ids : List Nat, ids.Nodup ∧ (∀ i, i ∈ ids ↔ ∃ e, i ∈ s.controller.occupancy.ids e) ∧
    List.Forall₂ (Session.Row s₀ steps s) ids st.holders ∧ ids.Pairwise s.RowBefore
  /-- The reasons come in the order of their bytes, and none twice. -/
  reasons_ascending :
    (st.waitingByReason.map Prod.fst).Pairwise fun a b => Text.bytes a < Text.bytes b
  /-- A reason has a row if a call waits with it, and the row counts these calls. -/
  mem_waitingByReason : ∀ reason n, (reason, n) ∈ st.waitingByReason ↔
    n = (s.pendingIds.countP fun i => s.waits[i]?.map (·.ticket.reason) = some reason) ∧ 0 < n
  sum_waitingByReason : (st.waitingByReason.map Prod.snd).sum = st.numWaiting
  numWaiting : st.numWaiting = s.pendingIds.length

namespace Session

variable {s m : Session} {what : Step} {capacity : Capacity} {linger : Span} {steps : List Step}

/-- A status that is taken at a moment up to the end of the run. -/
theorem pictures_status (hs : s.Orderly) (hdated : s.Dated)
    (hfollows : Follows s ((new capacity linger).run steps).1) :
    s.status.Pictures (new capacity linger) steps s := by
  have hwaiting := size_waiting hs
  obtain ⟨l, hl⟩ := hs
  have hinj := hl.sound.injOn_place (p := .waiting) (by decide)
  have hinj' := hl.sound.injOn_place (p := .holding) (by decide)
  have hlisting : l.controller.occupancy.listing = s.holderIds := by rw [hl.controller]; rfl
  refine ⟨numEntries_eq_length_dedup hl, ⟨s.holderIds, ?_, fun i => ?_, ?_, ?_⟩, ?_, ?_, ?_, ?_⟩
  · rw [← hlisting]
    exact hl.sound.holding.nodup_listing hinj'
  · exact Buckets.mem_listing_iff
  · refine (forall₂_holders hl).imp ?_
    rintro i h ⟨w, hw, hholds, rfl⟩
    exact row_holderOf hdated hfollows hw hholds
  · exact rowBefore_holderIds hl hdated
  · exact (s.controller.waiting.byReason.ordered_counts).imp Text.compare_eq_lt_iff.mp
  · intro reason n
    rw [← ncard_waiting_eq hl Ticket.reason reason, ← hl.sound.waiting.byReason.mem_counts_iff hinj,
      hl.controller]
    rfl
  · have htotal : l.controller.waiting.byReason.total = l.controller.waiting.size :=
      (hl.sound.waiting.byReason.total_eq_ncard hinj).trans
        (Ids.ncard_eq_size hinj hl.sound.waiting.mem_members_iff)
    rw [Buckets.total_eq_sum, hl.controller] at htotal
    exact htotal
  · exact hwaiting

/-- At rest, no time that is left is over. -/
theorem expiresIn_pos (hs : s.Orderly) (htimely : s.AllTimely) (hnone : s.NoneDue) {h : Holder}
    (hh : h ∈ s.status.holders) {left : Span} (hleft : h.expiresIn = some left) :
    0 < left.nanos := by
  obtain ⟨l, hl⟩ := hs
  obtain ⟨i, hi, w, hw, rfl⟩ := mem_holders_iff.mp hh
  obtain ⟨w', hw', hholds⟩ := holds_of_mem_holderIds hl hi
  obtain rfl := Option.some.inj (hw.symm.trans hw')
  obtain ⟨r, hr, rfl⟩ := Option.map_eq_some_iff.mp hleft
  cases r with
  | endless => exact show 0 < Span.longest.nanos by decide
  | ends announced freed =>
    have hend := lingerEnd?_eq_some_iff.mpr ⟨hholds, announced, hr⟩
    have hahead : s.now < freed := by
      by_contra hpassed
      exact hnone i ⟨w, freed, hw, hend, not_lt.mp hpassed⟩
    exact Nat.sub_pos_of_lt (hahead.trans_le (htimely i w announced freed hw hr).freed_le)

/-- **A status is the picture of the session.** After every run, and at every moment in the course
of one more step: it counts the entries that its rows name; it has one row for each ticket that
holds an entry, in the order of the entries and then of the calls; a row tells for how long the call
has been there, and, if its handle was released, how much time is left, which is the longest span if
the linger goes beyond the last instant; and the reasons are listed in their order, each with the
number of those who wait for it, which together are all who wait. When the session has settled,
there is some time left in each row that tells it. -/
theorem status_pictures_the_session (capacity : Capacity) (linger : Span) (steps : List Step) :
    let s₀ := new capacity linger
    let s := (s₀.run steps).1
    s.status.Pictures s₀ steps s ∧
      (∀ h ∈ s.status.holders, ∀ left, h.expiresIn = some left → 0 < left.nanos) ∧
      ∀ what m, s.Passes what m m [] → m.status.Pictures s₀ (steps ++ [what]) m := by
  intro s₀ s
  subst s s₀
  have hs : ((new capacity linger).run steps).1.Orderly := (orderly_new capacity linger).run steps
  have hdated : ((new capacity linger).run steps).1.Dated :=
    invariant_dated.run (dated_new capacity linger) steps
  refine ⟨pictures_status hs hdated (.refl _), fun h hh left hleft => ?_, fun what m hpasses => ?_⟩
  · exact expiresIn_pos hs (allTimely_run steps) (noneDue_run steps) hh hleft
  · obtain ⟨hm, hm_dated⟩ := invariant_dated.passes hpasses hs hdated
    obtain ⟨s₁, told, before, later, -, -, hlater, -⟩ := hpasses
    refine pictures_status hm hm_dated ?_
    rw [run_concat]
    exact hlater.follows hm

end Session

end Admission
