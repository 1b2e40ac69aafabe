import Admission.Counter
import Mathlib.Data.List.Infix
import Mathlib.Tactic.Common

/-!
# Looking only at the jobs that were woken

A scheduler that looks at every job that is left cannot miss a chance. One that looks only at the
jobs that are due saves most of the work, and relies on a single fact for it:

> a job that is left and is not due would go on waiting if it were looked at.

Whoever writes the counter wakes everybody, and so leaves nobody of whom this would have to be shown
again; who only looks leaves the counter as it was. With this fact the two schedulers go side by
side (`Counter.Matches`): they differ in the marks of the jobs and in how often they have looked,
and in nothing that an answer tells.

A transaction that fails half-way writes the counter and wakes nobody. The fact is lost then until
the next commit, and so nothing is said here of runs with such a transaction in them.
-/

set_option autoImplicit false

namespace Admission.Counter

/-- How much of the counter the job waits for. -/
def Goal.amount : Goal → Int64
  | take n => n
  | reach n => n

/-- Does the step run to its end? -/
def Step.Completes : Step → Prop
  | .fail _ => False
  | _ => True

/-- What an answer tells, but for the number of looks that it took. -/
def Answer.told (a : Answer) : Reply × List Settled × Int64 := (a.reply, a.settled, a.value)

/-- A job without the mark that it was woken. -/
def Job.unmarked (j : Job) : Job := { j with woken := false }

/-- A job that has ended. -/
def Job.ended (j : Job) : Job := { j with live := false }

/-- The jobs without their marks. -/
def record (c : Counter) : Array Job := c.jobs.map Job.unmarked

/-- The counters differ in marks and in the number of looks only. -/
structure Alike (c d : Counter) : Prop where
  value : c.value = d.value
  record : c.record = d.record

/-- The job is due, or would go on waiting if it were looked at. -/
def Job.MissesNothing (j : Job) (value : Int64) : Prop :=
  j.live = true → j.isDue = false → j.verdict value = .retry

/-- The counter `d` is like `c`, and no job of `c` misses anything. -/
structure Matches (c d : Counter) : Prop where
  alike : c.Alike d
  none_missed : ∀ (i : Nat) (j : Job), c.jobs[i]? = some j → j.MissesNothing c.value

/-- The job with the number `i`, if it is left, would go on waiting if it were looked at. -/
def GoesOn (c : Counter) (i : Nat) : Prop :=
  ∀ j, c.jobs[i]? = some j → j.live = true → j.verdict c.value = .retry

/-- No job that is left would end if it were looked at. -/
def AtRest (c : Counter) : Prop := ∀ i, c.GoesOn i

variable {c d e : Counter} {id : Nat} {j k : Job}

/-! ## Marks -/

namespace Alike

theorem refl (c : Counter) : c.Alike c := ⟨rfl, rfl⟩

theorem symm (h : c.Alike d) : d.Alike c := ⟨h.value.symm, h.record.symm⟩

theorem trans (h : c.Alike d) (h' : d.Alike e) : c.Alike e :=
  ⟨h.value.trans h'.value, h.record.trans h'.record⟩

theorem size (h : c.Alike d) : c.jobs.size = d.jobs.size := by
  have hsize := congrArg Array.size h.record
  simpa only [Counter.record, Array.size_map] using hsize

theorem map_unmarked (h : c.Alike d) (id : Nat) :
    c.jobs[id]?.map Job.unmarked = d.jobs[id]?.map Job.unmarked := by
  have hget := congrArg (·[id]?) h.record
  simpa only [Counter.record, Array.getElem?_map] using hget

/-- Under each number both have a job, the same but for its mark, or neither has one. -/
theorem getElem?_cases (h : c.Alike d) (id : Nat) :
    (c.jobs[id]? = none ∧ d.jobs[id]? = none) ∨
      ∃ j k, c.jobs[id]? = some j ∧ d.jobs[id]? = some k ∧ j.unmarked = k.unmarked := by
  have hmap := h.map_unmarked id
  cases hc : c.jobs[id]? with
  | none =>
    rw [hc, Option.map_none, eq_comm, Option.map_eq_none_iff] at hmap
    exact Or.inl ⟨rfl, hmap⟩
  | some j =>
    rw [hc, Option.map_some, eq_comm, Option.map_eq_some_iff] at hmap
    obtain ⟨k, hd, hk⟩ := hmap
    exact Or.inr ⟨j, k, rfl, hd, hk.symm⟩

end Alike

theorem verdict_of_unmarked_eq (h : j.unmarked = k.unmarked) (value : Int64) :
    j.verdict value = k.verdict value := by
  change j.unmarked.verdict value = k.unmarked.verdict value
  rw [h]

theorem live_of_unmarked_eq (h : j.unmarked = k.unmarked) : j.live = k.live := by
  change j.unmarked.live = k.unmarked.live
  rw [h]

theorem record_wakeAll (c : Counter) : c.wakeAll.record = c.record := by
  simp only [record, wakeAll, Array.map_map]
  rfl

/-- A change of one job that has nothing to do with its mark. -/
theorem record_modify (c : Counter) (id : Nat) {f : Job → Job}
    (hf : ∀ j, (f j).unmarked = f j.unmarked) :
    (c.modify id f).record = c.record.modify id f := by
  refine Array.ext_getElem? fun i => ?_
  simp only [record, modify, Array.getElem?_map, Array.getElem?_modify]
  split
  · simp only [Option.map_map, Function.comp_def, hf]
  · rfl

theorem record_sleep (c : Counter) (id : Nat) :
    (c.modify id fun j => { j with woken := false }).record = c.record := by
  refine Array.ext_getElem? fun i => ?_
  simp only [record, modify, Array.getElem?_map, Array.getElem?_modify]
  split
  · rw [Option.map_map]
    rfl
  · rfl

/-- The jobs that are left are counted without regard to marks. -/
theorem numLive_eq_countP (c : Counter) : c.numLive = c.record.toList.countP Job.live := by
  rw [numLive, record, Array.toList_map, List.countP_map, List.countP_eq_length_filter]
  rfl

namespace Alike

theorem numLive (h : c.Alike d) : c.numLive = d.numLive := by
  rw [numLive_eq_countP, numLive_eq_countP, h.record]

theorem push (h : c.Alike d) (j : Job) :
    Alike { c with jobs := c.jobs.push j } { d with jobs := d.jobs.push j } := by
  refine ⟨h.value, ?_⟩
  have hrecord := h.record
  unfold Counter.record at hrecord ⊢
  rw [Array.map_push, Array.map_push, hrecord]

theorem modify (h : c.Alike d) (id : Nat) {f : Job → Job}
    (hf : ∀ j, (f j).unmarked = f j.unmarked) : (c.modify id f).Alike (d.modify id f) := by
  refine ⟨h.value, ?_⟩
  rw [record_modify c id hf, record_modify d id hf, h.record]

theorem goesOn (h : c.Alike d) {i : Nat} (hd : d.GoesOn i) : c.GoesOn i := by
  intro j hj hlive
  obtain ⟨hc, -⟩ | ⟨j', k, hc, hk, hjk⟩ := h.getElem?_cases i
  · exact absurd (hj.symm.trans hc) (Option.some_ne_none j)
  · obtain rfl := Option.some.inj (hc.symm.trans hj)
    rw [verdict_of_unmarked_eq hjk, h.value]
    exact hd k hk (live_of_unmarked_eq hjk ▸ hlive)

end Alike

/-- To be cancelled makes a job due, if it has anything to do with the job. -/
theorem Job.MissesNothing.cancel {value : Int64} (h : j.MissesNothing value) :
    Job.MissesNothing { j with cancelled := true } value := by
  rcases j with ⟨n | n, live, woken, cancelled⟩
  · simp_all [Job.MissesNothing, Job.isDue, Goal.isCancellable]
  · exact fun hlive hdue => h hlive (by simpa [Job.isDue, Goal.isCancellable] using hdue)

/-- A job goes on waiting when the counter is too small for it and nobody has cancelled it. -/
theorem Job.verdict_eq_retry_iff {value : Int64} :
    j.verdict value = .retry ↔
      value < j.goal.amount ∧ (j.goal.isCancellable = true → j.cancelled = false) := by
  rcases j with ⟨n | n, live, woken, cancelled⟩
  · simp only [Job.verdict, Goal.amount, Goal.isCancellable, ← Int64.not_le]
    by_cases hn : n ≤ value <;> cases cancelled <;> simp [hn]
  · simp only [Job.verdict, Goal.amount, Goal.isCancellable, ← Int64.not_le]
    by_cases hn : n ≤ value <;> simp [hn]

/-! ## One look at a job -/

/-- How the job ends by the verdict, if it does. -/
def Verdict.outcome? : Verdict → Option Outcome
  | .commit _ outcome => some outcome
  | .observe outcome => some outcome
  | .retry => none

/-- The counter after the verdict. -/
def Verdict.write (value : Int64) : Verdict → Int64
  | .commit value' _ => value'
  | .observe _ => value
  | .retry => value

theorem settled_evaluate (c : Counter) (id : Nat) (j : Job) :
    (c.evaluate id j).2 = (j.verdict c.value).outcome?.toList.map fun o => ⟨id, o⟩ := by
  unfold evaluate
  cases j.verdict c.value <;> rfl

theorem value_evaluate (c : Counter) (id : Nat) (j : Job) :
    (c.evaluate id j).1.value = (j.verdict c.value).write c.value := by
  unfold evaluate
  cases j.verdict c.value <;> rfl

theorem record_evaluate (c : Counter) (id : Nat) (j : Job) :
    (c.evaluate id j).1.record =
      if (j.verdict c.value).outcome? = none then c.record else c.record.modify id Job.ended := by
  have hended : ∀ c : Counter, (c.retire id).record = c.record.modify id Job.ended :=
    fun c => c.record_modify id fun _ => rfl
  have hsleep := c.record_sleep id
  unfold evaluate
  cases j.verdict c.value with
  | commit value outcome =>
    refine (record_wakeAll _).trans ((hended _).trans ?_)
    exact congrArg (Array.modify · id Job.ended) hsleep
  | observe outcome => exact (hended _).trans (congrArg (Array.modify · id Job.ended) hsleep)
  | retry => exact hsleep

theorem alike_evaluate_of_retry (h : j.verdict c.value = .retry) : (c.evaluate id j).1.Alike c := by
  refine ⟨?_, ?_⟩
  · rw [value_evaluate, h]
    rfl
  · rw [record_evaluate, h]
    rfl

theorem Alike.evaluate (h : c.Alike d) (hjk : j.unmarked = k.unmarked) :
    (c.evaluate id j).1.Alike (d.evaluate id k).1 := by
  have hverdict := verdict_of_unmarked_eq hjk c.value
  refine ⟨?_, ?_⟩
  · rw [value_evaluate, value_evaluate, hverdict, h.value]
  · rw [record_evaluate, record_evaluate, hverdict, h.value, h.record]

/-- Of the jobs that were just woken, none misses anything, whatever was written. -/
theorem none_missed_wakeAll (c : Counter) (value : Int64) {i : Nat}
    (hk : c.wakeAll.jobs[i]? = some k) : k.MissesNothing value := by
  simp only [wakeAll, Array.getElem?_map, Option.map_eq_some_iff] at hk
  obtain ⟨k, -, rfl⟩ := hk
  intro (hlive : k.live = true) hdue
  simp [Job.isDue, hlive] at hdue

theorem getElem?_modify_of_ne {f : Job → Job} {i : Nat} (hi : i ≠ id) :
    (c.modify id f).jobs[i]? = c.jobs[i]? := by
  rw [modify, Array.getElem?_modify, if_neg hi.symm]

/-- To change one job makes nobody else miss anything. -/
theorem none_missed_modify {f : Job → Job} {value : Int64}
    (hother : ∀ i k, i ≠ id → c.jobs[i]? = some k → k.MissesNothing value)
    (hself : ∀ k, c.jobs[id]? = some k → (f k).MissesNothing value) {i : Nat}
    (hk : (c.modify id f).jobs[i]? = some k) : k.MissesNothing value := by
  by_cases hi : i = id
  · subst hi
    rw [modify, Array.getElem?_modify, if_pos rfl] at hk
    obtain ⟨j, hj, rfl⟩ := Option.map_eq_some_iff.mp hk
    exact hself j hj
  · rw [getElem?_modify_of_ne hi] at hk
    exact hother i k hi hk

theorem Job.missesNothing_of_ended (j : Job) (value : Int64) : j.ended.MissesNothing value :=
  fun hlive => Bool.noConfusion hlive

/-- **Whoever writes wakes everybody, and who only looks changes nothing.** So after a look at a job
nobody misses anything, if before it nobody else did. -/
theorem none_missed_evaluate (hj : c.jobs[id]? = some j)
    (h : ∀ i k, i ≠ id → c.jobs[i]? = some k → k.MissesNothing c.value) {i : Nat}
    (hk : (c.evaluate id j).1.jobs[i]? = some k) : k.MissesNothing (c.evaluate id j).1.value := by
  rw [value_evaluate]
  unfold evaluate at hk
  cases hv : j.verdict c.value with
  | commit value outcome =>
    rw [hv] at hk
    exact none_missed_wakeAll _ _ hk
  | observe outcome =>
    rw [hv] at hk
    refine none_missed_modify (fun i k hi hk => ?_) (fun k _ => k.missesNothing_of_ended _) hk
    exact h i k hi (getElem?_modify_of_ne hi ▸ hk)
  | retry =>
    rw [hv] at hk
    refine none_missed_modify h (fun k hk _ _ => ?_) hk
    obtain rfl := Option.some.inj (hj.symm.trans hk)
    exact hv

/-! ## Side by side -/

namespace Matches

/-- Both look at the job, or the one looks and finds that it goes on waiting, or neither looks. -/
theorem consider (h : c.Matches d) (id : Nat) :
    (c.consider Job.isDue id).2 = (d.consider Job.live id).2 ∧
      (c.consider Job.isDue id).1.Matches (d.consider Job.live id).1 := by
  unfold Counter.consider
  rcases h.alike.getElem?_cases id with ⟨hc, hd⟩ | ⟨j, k, hc, hd, hjk⟩
  · simp only [hc, hd]
    exact ⟨trivial, h⟩
  · simp only [hc, hd, ← live_of_unmarked_eq hjk]
    have hverdict : j.verdict c.value = k.verdict d.value := by
      rw [verdict_of_unmarked_eq hjk, h.alike.value]
    by_cases hdue : j.isDue = true
    · have hlive : j.live = true := (Bool.and_eq_true_iff.mp hdue).1
      rw [if_pos hdue, if_pos hlive]
      refine ⟨by rw [settled_evaluate, settled_evaluate, hverdict], h.alike.evaluate hjk, ?_⟩
      exact fun i m hm => none_missed_evaluate hc (fun i k _ => h.none_missed i k) hm
    · rw [if_neg hdue]
      by_cases hlive : j.live = true
      · -- Only the one that polls looks at the job, and the fact says what it comes to.
        have hretry := h.none_missed id j hc hlive (Bool.not_eq_true _ ▸ hdue)
        rw [hverdict] at hretry
        rw [if_pos hlive]
        refine ⟨by rw [settled_evaluate, hretry]; rfl, ?_, h.none_missed⟩
        exact h.alike.trans (alike_evaluate_of_retry hretry).symm
      · rw [if_neg hlive]
        exact ⟨rfl, h⟩

theorem pass (h : c.Matches d) (ids : List Nat) :
    (Counter.pass Job.isDue ids c).2 = (Counter.pass Job.live ids d).2 ∧
      (Counter.pass Job.isDue ids c).1.Matches (Counter.pass Job.live ids d).1 := by
  induction ids generalizing c d with
  | nil => exact ⟨rfl, h⟩
  | cons id rest ih =>
    obtain ⟨hended, hmatches⟩ := h.consider id
    obtain ⟨hlater, hrest⟩ := ih hmatches
    simp only [Counter.pass]
    exact ⟨by rw [hended, hlater], hrest⟩

theorem passes (h : c.Matches d) (fuel : Nat) :
    (Counter.passes Job.isDue fuel c).2 = (Counter.passes Job.live fuel d).2 ∧
      (Counter.passes Job.isDue fuel c).1.Matches (Counter.passes Job.live fuel d).1 := by
  induction fuel generalizing c d with
  | zero => exact ⟨rfl, h⟩
  | succ fuel ih =>
    obtain ⟨hended, hmatches⟩ := h.pass (List.range c.jobs.size)
    obtain ⟨hlater, hrest⟩ := ih hmatches
    rw [h.alike.size] at hended hmatches hlater hrest
    simp only [Counter.passes, h.alike.size, hended]
    -- A pass that ends nobody is the last one, and the two agree on whether it ends somebody.
    split
    · exact ⟨rfl, hmatches⟩
    · exact ⟨by rw [hlater], hrest⟩

theorem settle (h : c.Matches d) :
    (c.settle Job.isDue).2 = (d.settle Job.live).2 ∧
      (c.settle Job.isDue).1.Matches (d.settle Job.live).1 := by
  unfold Counter.settle
  rw [h.alike.numLive]
  exact h.passes (d.numLive + 1)

/-- What is done to the counter before jobs are looked at is told alike, and nobody misses
anything by it, unless the step fails half-way. -/
theorem perform (h : c.Matches d) {what : Step} (hwhat : what.Completes) :
    (c.perform what).2 = (d.perform what).2 ∧ (c.perform what).1.Matches (d.perform what).1 := by
  obtain ⟨halike, hnone⟩ := h
  cases what with
  | add n =>
    refine ⟨by rw [Counter.perform, Counter.perform, halike.value], ⟨?_, ?_⟩, ?_⟩
    · exact congrArg (· + n) halike.value
    · exact (record_wakeAll c).trans (halike.record.trans (record_wakeAll d).symm)
    · exact fun i k hk => none_missed_wakeAll c _ hk
  | read => exact ⟨by rw [Counter.perform, Counter.perform, halike.value], halike, hnone⟩
  | fail n => exact hwhat.elim
  | begin goal =>
    -- The new job is not due; what it does not miss, it does not miss because it was looked at.
    have hpushed := halike.push (Job.new goal)
    have hnew : (c.jobs.push (Job.new goal))[c.jobs.size]? = some (Job.new goal) :=
      Array.getElem?_push_size
    simp only [Counter.perform, ← halike.size]
    refine ⟨?_, hpushed.evaluate rfl, fun i k hk => none_missed_evaluate hnew ?_ hk⟩
    · rw [settled_evaluate, settled_evaluate, halike.value]
    · intro i k hi hk
      rw [Array.getElem?_push, if_neg hi] at hk
      exact hnone i k hk
  | cancel id =>
    refine ⟨rfl, halike.modify id fun _ => rfl, fun i k hk => ?_⟩
    exact none_missed_modify (fun i k _ => hnone i k) (fun k hk => (hnone id k hk).cancel) hk
  | abandon id =>
    refine ⟨rfl, halike.modify id fun _ => rfl, fun i k hk => ?_⟩
    exact none_missed_modify (fun i k _ => hnone i k) (fun k _ => k.missesNothing_of_ended _) hk

theorem stepWith (h : c.Matches d) {what : Step} (hwhat : what.Completes) :
    (c.stepWith Job.isDue what).2.told = (d.stepWith Job.live what).2.told ∧
      (c.stepWith Job.isDue what).1.Matches (d.stepWith Job.live what).1 := by
  obtain ⟨htold, hperformed⟩ := h.perform hwhat
  obtain ⟨hsettled, hmatches⟩ := hperformed.settle
  refine ⟨?_, hmatches⟩
  simp only [Answer.told, Counter.stepWith, htold, hsettled, hmatches.alike.value]

theorem runWith (h : c.Matches d) {steps : List Step} (hsteps : ∀ what ∈ steps, what.Completes) :
    (c.runWith Job.isDue steps).2.map Answer.told =
        (d.runWith Job.live steps).2.map Answer.told ∧
      (c.runWith Job.isDue steps).1.Matches (d.runWith Job.live steps).1 := by
  induction steps generalizing c d with
  | nil => exact ⟨rfl, h⟩
  | cons what rest ih =>
    obtain ⟨hfirst, hrest⟩ := List.forall_mem_cons.mp hsteps
    obtain ⟨htold, hmatches⟩ := h.stepWith hfirst
    obtain ⟨hlater, hend⟩ := ih hmatches hrest
    exact ⟨congrArg₂ List.cons htold hlater, hend⟩

end Matches

/-! ## Polling comes to rest -/

theorem countP_modify {α : Type} {p : α → Bool} {f : α → α} {l : List α} {i : Nat} {a : α}
    (h : l[i]? = some a) :
    (l.modify i f).countP p + (p a).toNat = l.countP p + (p (f a)).toNat := by
  have hone : ∀ b, (if p b = true then 1 else 0) = (p b).toNat := fun b => by
    cases p b <;> rfl
  induction l generalizing i with
  | nil => simp at h
  | cons b l ih =>
    cases i with
    | zero =>
      obtain rfl : b = a := by simpa using h
      rw [List.modify_zero_cons, List.countP_cons, List.countP_cons, hone, hone]
      omega
    | succ i =>
      have hrest := ih (by simpa using h)
      rw [List.modify_succ_cons, List.countP_cons, List.countP_cons]
      omega

theorem countP_live_modify_ended {jobs : List Job} (hj : jobs[id]? = some j)
    (hlive : j.live = true) :
    (jobs.modify id Job.ended).countP Job.live + 1 = jobs.countP Job.live := by
  have hcount := countP_modify (p := Job.live) (f := Job.ended) hj
  rw [hlive] at hcount
  exact hcount

/-- Each look ends the job that it is at, or leaves all jobs that were left. -/
theorem numLive_evaluate (hj : c.jobs[id]? = some j) (hlive : j.live = true) :
    (c.evaluate id j).1.numLive + (c.evaluate id j).2.length = c.numLive := by
  have hget : c.record.toList[id]? = some j.unmarked := by
    rw [Array.getElem?_toList, record, Array.getElem?_map, hj, Option.map_some]
  rw [numLive_eq_countP, numLive_eq_countP, record_evaluate, settled_evaluate]
  cases (j.verdict c.value).outcome? with
  | none => rfl
  | some outcome =>
    rw [if_neg (Option.some_ne_none outcome), Array.toList_modify]
    exact countP_live_modify_ended hget hlive

/-- The one that polls looks at a job that is left, and at nothing else. -/
theorem consider_live_cases (c : Counter) (id : Nat) :
    (∃ j, c.jobs[id]? = some j ∧ j.live = true ∧ c.consider Job.live id = c.evaluate id j) ∨
      ((∀ j, c.jobs[id]? = some j → j.live = false) ∧ c.consider Job.live id = (c, [])) := by
  unfold consider
  cases hj : c.jobs[id]? with
  | none => exact Or.inr ⟨fun j hj' => absurd hj'.symm (Option.some_ne_none j), rfl⟩
  | some j =>
    cases hlive : j.live with
    | true => exact Or.inl ⟨j, rfl, hlive, if_pos hlive⟩
    | false =>
      refine Or.inr ⟨fun k hk => Option.some.inj hk ▸ hlive, if_neg ?_⟩
      exact Bool.eq_false_iff.mp hlive

theorem numLive_consider (c : Counter) (id : Nat) :
    (c.consider Job.live id).1.numLive + (c.consider Job.live id).2.length = c.numLive := by
  obtain ⟨j, hj, hlive, heq⟩ | ⟨-, heq⟩ := c.consider_live_cases id
  · rw [heq]
    exact numLive_evaluate hj hlive
  · rw [heq]
    rfl

theorem numLive_pass (c : Counter) (ids : List Nat) :
    (pass Job.live ids c).1.numLive + (pass Job.live ids c).2.length = c.numLive := by
  induction ids generalizing c with
  | nil => rfl
  | cons id rest ih =>
    have hfirst := c.numLive_consider id
    have hrest := ih (c.consider Job.live id).1
    simp only [pass, List.length_append]
    omega

theorem retry_of_evaluate_eq_nil (h : (c.evaluate id j).2 = []) : j.verdict c.value = .retry := by
  rw [settled_evaluate] at h
  cases hv : j.verdict c.value with
  | retry => rfl
  | commit value outcome => simp [hv, Verdict.outcome?] at h
  | observe outcome => simp [hv, Verdict.outcome?] at h

theorem goesOn_of_consider_eq_nil (h : (c.consider Job.live id).2 = []) :
    (c.consider Job.live id).1.Alike c ∧ c.GoesOn id := by
  obtain ⟨j, hj, -, heq⟩ | ⟨hended, heq⟩ := c.consider_live_cases id
  · rw [heq] at h ⊢
    have hretry := retry_of_evaluate_eq_nil h
    refine ⟨alike_evaluate_of_retry hretry, fun k hk _ => ?_⟩
    rwa [Option.some.inj (hk.symm.trans hj)]
  · rw [heq]
    exact ⟨Alike.refl c, fun k hk hlive => absurd hlive (Bool.eq_false_iff.mp (hended k hk))⟩

/-- A pass that ends nobody changes nothing but marks, and all that it looked at go on waiting. -/
theorem goesOn_of_pass_eq_nil {ids : List Nat} (h : (pass Job.live ids c).2 = []) :
    (pass Job.live ids c).1.Alike c ∧ ∀ i ∈ ids, c.GoesOn i := by
  induction ids generalizing c with
  | nil => exact ⟨Alike.refl c, fun i hi => absurd hi List.not_mem_nil⟩
  | cons id rest ih =>
    obtain ⟨hfirst, hlater⟩ := List.append_eq_nil_iff.mp h
    obtain ⟨halike, hgoes⟩ := goesOn_of_consider_eq_nil hfirst
    obtain ⟨hpass, hrest⟩ := ih hlater
    refine ⟨hpass.trans halike, List.forall_mem_cons.mpr ⟨hgoes, fun i hi => ?_⟩⟩
    exact halike.symm.goesOn (hrest i hi)

/-- Each pass but the last ends a job, so the passes do not run out before the last one. -/
theorem atRest_passes {fuel : Nat} (hfuel : c.numLive < fuel) :
    (passes Job.live fuel c).1.AtRest := by
  induction fuel generalizing c with
  | zero => exact absurd hfuel (Nat.not_lt_zero _)
  | succ fuel ih =>
    have hnum := c.numLive_pass (List.range c.jobs.size)
    simp only [passes]
    split
    case isTrue hended =>
      obtain ⟨halike, hgoes⟩ := goesOn_of_pass_eq_nil (List.isEmpty_iff.mp hended)
      refine fun i => halike.goesOn fun j hj => hgoes i (List.mem_range.mpr ?_) j hj
      exact (Array.getElem?_eq_some_iff.mp hj).1
    case isFalse hended =>
      have hpos := List.length_pos_iff.mpr fun h => hended (List.isEmpty_iff.mpr h)
      exact ih (by omega)

theorem atRest_new (value : Int64) : (new value).AtRest :=
  fun i j hj => absurd hj (by simp [new])

theorem AtRest.runWith (h : c.AtRest) (steps : List Step) :
    (c.runWith Job.live steps).1.AtRest := by
  induction steps generalizing c with
  | nil => exact h
  | cons what rest ih => exact ih (atRest_passes (Nat.lt_succ_self _))

/-- **To look only at the jobs that were woken is as good as to look at all of them.** Let steps be
done to a counter, none of which fails half-way. Then the scheduler that looks at the jobs that are
due and the one that looks at every job that is left answer alike, step by step: the same reply, the
same jobs ended in the same ways and in the same order, and the same counter. And after each of the
steps the counter is too small for every job that is left, and none of these that can be cancelled
was. -/
theorem waking_is_as_good_as_polling (value : Int64) (steps : List Step)
    (hsteps : ∀ what ∈ steps, what.Completes) :
    ((new value).run steps).2.map Answer.told =
        ((new value).runWith Job.live steps).2.map Answer.told ∧
      ∀ before, before <+: steps → ∀ (i : Nat) (j : Job),
        ((new value).run before).1.jobs[i]? = some j → j.live = true →
          ((new value).run before).1.value < j.goal.amount ∧
            (j.goal.isCancellable = true → j.cancelled = false) := by
  have hstart : (new value).Matches (new value) :=
    ⟨Alike.refl _, fun i j hj => absurd hj (by simp [new])⟩
  refine ⟨(hstart.runWith hsteps).1, fun before hbefore i j hj hlive => ?_⟩
  have hmatches := (hstart.runWith fun what hwhat => hsteps what (hbefore.subset hwhat)).2
  have hrest := (atRest_new value).runWith before
  exact Job.verdict_eq_retry_iff.mp (hmatches.alike.goesOn (hrest i) j hj hlive)

/-- Of two jobs that wait for the same amount the first takes it, a third is cancelled before the
counter is large enough for it, and the second is given up. -/
theorem waking_is_as_good_as_polling_three_jobs :
    let steps : List Step :=
      [.begin (.take 3), .begin (.reach 3), .begin (.take 9), .cancel 2, .add 3, .abandon 1, .read]
    (∀ what ∈ steps, what.Completes) ∧
      ((new 0).run steps).2.map Answer.told =
        [(.started 0, [], 0), (.started 1, [], 0), (.started 2, [], 0),
          (.nothing, [⟨2, .cancelled⟩], 0), (.value 0, [⟨0, .taken⟩], 0), (.nothing, [], 0),
          (.value 0, [], 0)] := by
  intro steps
  have hsteps : ∀ what ∈ steps, what.Completes := by simp [steps, Step.Completes]
  refine ⟨hsteps, (waking_is_as_good_as_polling 0 steps hsteps).1.trans ?_⟩
  decide +kernel

/-- A step that fails half-way leaves asleep whom it would have woken. -/
example :
    ((new 0).run [.begin (.take 5), .fail 5]).2.map Answer.settled = [[], []] ∧
      ((new 0).runWith Job.live [.begin (.take 5), .fail 5]).2.map Answer.settled =
        [[], [⟨0, .taken⟩]] := by
  decide +kernel

end Admission.Counter
