import Admission.Proofs.Waking

/-!
# The counter's balance

Whatever is written to the counter is still in it at the end, also by a transaction that fails
half-way: its addition stays, only that nobody is told. What this does to the others is confined,
and the history of a run tells how far (`Counter.marks`): it lists every look at a job with the
counter that it saw, and every addition that slipped in unannounced. For a job that is left it shows
that

> the counter is what the last look at the job saw, and what has slipped in since.

The fact is lost when the counter is written, and the same write wakes everybody. So it need only
hold of jobs that sleep (`Counter.Knows`), and after each step all jobs that are left do.
-/

set_option autoImplicit false

namespace Admission.Counter

/-! ## What is written -/

/-- How much the step adds to the counter, whether or not it runs to its end. -/
def Step.added : Step → Int64
  | .add n => n
  | .fail n => n
  | _ => 0

/-- The goals of the jobs that the steps begin. -/
def Step.goals (steps : List Step) : List Goal :=
  steps.filterMap fun what =>
    match what with
    | .begin goal => some goal
    | _ => none

/-- How much a job with one of these goals took from the counter when it ended. -/
def Settled.amount (goals : List Goal) (ended : Settled) : Int64 :=
  match ended.outcome with
  | .taken => (goals[ended.id]?.map Goal.amount).getD 0
  | _ => 0

/-- How much jobs took from the counter when they ended. -/
def taken (goals : List Goal) (ended : List Settled) : Int64 :=
  (ended.map (Settled.amount goals)).sum

/-- The goals of all jobs, in their order. -/
def goals (c : Counter) : List Goal := c.jobs.toList.map Job.goal

/-! ## What is seen -/

/-- Something in the history of a counter. -/
inductive Mark where
  /-- A job was looked at, and the counter had this value. -/
  | looked (id : Nat) (value : Int64)
  /-- A transaction failed after it had added `n`. -/
  | slipped (n : Int64)
deriving DecidableEq, Repr

/-- How much has slipped in. -/
def slips (marks : List Mark) : Int64 :=
  (marks.map fun mark =>
    match mark with
    | .slipped n => n
    | .looked _ _ => 0).sum

/-- The job was looked at. -/
def Seen (i : Nat) (marks : List Mark) : Prop := ∃ value, Mark.looked i value ∈ marks

/-- The last look at the job saw `value`, and `since` is what came after it. -/
def LastLook (marks : List Mark) (i : Nat) (value : Int64) (since : List Mark) : Prop :=
  ∃ before, marks = before ++ .looked i value :: since ∧ ¬ Seen i since

/-- The look at a job, if it is due. -/
def considerMarks (c : Counter) (id : Nat) : List Mark :=
  match c.jobs[id]? with
  | none => []
  | some j => if j.isDue then [.looked id c.value] else []

/-- The looks of a pass. -/
def passMarks : List Nat → Counter → List Mark
  | [], _ => []
  | id :: rest, c => c.considerMarks id ++ passMarks rest (c.consider Job.isDue id).1

/-- The looks of at most `fuel` passes. -/
def passesMarks : Nat → Counter → List Mark
  | 0, _ => []
  | fuel + 1, c =>
    let (c₁, ended) := pass Job.isDue (List.range c.jobs.size) c
    passMarks (List.range c.jobs.size) c ++ if ended.isEmpty then [] else passesMarks fuel c₁

/-- What a step adds to the history before the other jobs are looked at. -/
def performMarks (c : Counter) : Step → List Mark
  | .begin _ => [.looked c.jobs.size c.value]
  | .fail n => [.slipped n]
  | _ => []

/-- What a step adds to the history. -/
def stepMarks (c : Counter) (what : Step) : List Mark :=
  let (c₁, _, _) := c.perform what
  c.performMarks what ++ passesMarks (c₁.numLive + 1) c₁

/-- The history of steps one after another. -/
def marks (c : Counter) : List Step → List Mark
  | [] => []
  | what :: rest => c.stepMarks what ++ (c.step what).1.marks rest

/-- How many looks there are in the history. -/
def numLooks (marks : List Mark) : Nat :=
  marks.countP fun mark =>
    match mark with
    | .looked _ _ => true
    | .slipped _ => false

/-- Does the step commit? An addition does, and so does a job that takes something or is
cancelled. -/
def Step.Commits (what : Step) (a : Answer) : Prop :=
  (∃ n, what = .add n) ∨ ∃ ended ∈ a.settled, ended.outcome ≠ .held

/-- The job is left. -/
def Waits (c : Counter) (i : Nat) : Prop := ∃ j, c.jobs[i]? = some j ∧ j.live = true

/-- The job is left and was woken. -/
def Awake (c : Counter) (i : Nat) : Prop :=
  ∃ j, c.jobs[i]? = some j ∧ j.live = true ∧ j.woken = true

/-- Of a job that is left and sleeps, the history tells the last look, which saw too little for it;
and what has slipped in since is all that has changed. -/
def Knows (c : Counter) (past : List Mark) (i : Nat) : Prop :=
  ∀ j, c.jobs[i]? = some j → j.live = true → j.woken = false →
    ∃ value since, LastLook past i value since ∧ c.value = value + slips since ∧
      value < j.goal.amount

/-- No job is due. -/
def Sleeps (c : Counter) : Prop := ∀ (i : Nat) (j : Job), c.jobs[i]? = some j → j.isDue = false

/-- What looks at jobs lead to, from `c` to `d`, with the marks that they leave and the jobs that
they end. -/
structure Leads (c d : Counter) (marks : List Mark) (ended : List Settled) : Prop where
  evaluations : d.evaluations = c.evaluations + numLooks marks
  goals : d.goals = c.goals
  /-- The jobs that begin later do not matter for what was taken before. -/
  value : ∀ more, d.value = c.value - taken (c.goals ++ more) ended
  numLive : d.numLive + ended.length = c.numLive
  /-- A job does not end without being looked at. -/
  waits : ∀ i, c.Waits i → d.Waits i ∨ Seen i marks
  /-- A job that was woken stays so until it is looked at. -/
  awake : ∀ i, c.Awake i → d.Awake i ∨ Seen i marks
  /-- A commit wakes all. -/
  wakes : (∃ s ∈ ended, s.outcome ≠ .held) → ∀ i, c.Waits i → d.Awake i ∨ Seen i marks
  knows : ∀ past, (∀ i, c.Knows past i) → ∀ i, d.Knows (past ++ marks) i

variable {c d e : Counter} {id i : Nat} {j k : Job} {marks later past since : List Mark}
  {ended : List Settled} {what : Step}

/-! ## Histories -/

theorem taken_append (goals : List Goal) (ended later : List Settled) :
    taken goals (ended ++ later) = taken goals ended + taken goals later := by
  simp [taken, List.sum_append]

theorem slips_append (marks later : List Mark) :
    slips (marks ++ later) = slips marks + slips later := by
  simp [slips, List.sum_append]

theorem numLooks_append (marks later : List Mark) :
    numLooks (marks ++ later) = numLooks marks + numLooks later := List.countP_append

theorem slips_eq_zero (h : ∀ n, Mark.slipped n ∉ marks) : slips marks = 0 := by
  induction marks with
  | nil => rfl
  | cons mark rest ih =>
    have hrest := ih fun n hn => h n (List.mem_cons_of_mem mark hn)
    cases mark with
    | slipped n => exact absurd List.mem_cons_self (h n)
    | looked i value => simpa [slips] using hrest

theorem seen_append : Seen i (marks ++ later) ↔ Seen i marks ∨ Seen i later := by
  simp [Seen, List.mem_append, exists_or]

theorem LastLook.append {value : Int64} (h : LastLook past i value since) (hnot : ¬ Seen i later) :
    LastLook (past ++ later) i value (since ++ later) := by
  obtain ⟨before, rfl, hsince⟩ := h
  refine ⟨before, by simp, ?_⟩
  rw [seen_append]
  exact fun hseen => hseen.elim hsince hnot

theorem lastLook_concat (past : List Mark) (i : Nat) (value : Int64) :
    LastLook (past ++ [.looked i value]) i value [] :=
  ⟨past, rfl, by simp [Seen]⟩

/-- What happens to others, and what slips in, leaves the last look at a job as it was. -/
theorem Knows.append (h : c.Knows past i) (hvalue : d.value = c.value + slips marks)
    (hnot : ¬ Seen i marks)
    (hbefore : ∀ j, d.jobs[i]? = some j → j.live = true → j.woken = false →
      ∃ k, c.jobs[i]? = some k ∧ k.live = true ∧ k.woken = false ∧ k.goal = j.goal) :
    d.Knows (past ++ marks) i := by
  intro j hj hlive hwoken
  obtain ⟨k, hk, hklive, hkwoken, hgoal⟩ := hbefore j hj hlive hwoken
  obtain ⟨value, since, hlast, hsaw, hless⟩ := h k hk hklive hkwoken
  refine ⟨value, since ++ marks, hlast.append hnot, ?_, hgoal ▸ hless⟩
  rw [hvalue, hsaw, slips_append]
  grind

namespace Leads

theorem refl (c : Counter) : c.Leads c [] [] where
  evaluations := rfl
  goals := rfl
  value more := by simp [taken]
  numLive := rfl
  waits _ hi := Or.inl hi
  awake _ hi := Or.inl hi
  wakes h := by simp at h
  knows past h i := by simpa using h i

theorem trans (h : c.Leads d marks ended) {ended' : List Settled} (h' : d.Leads e later ended') :
    c.Leads e (marks ++ later) (ended ++ ended') where
  evaluations := by rw [h'.evaluations, h.evaluations, numLooks_append, Nat.add_assoc]
  goals := h'.goals.trans h.goals
  value more := by
    rw [h'.value more, h.value more, h.goals, taken_append]
    grind
  numLive := by
    have hfirst := h.numLive
    have hsecond := h'.numLive
    rw [List.length_append]
    omega
  waits i hi := by
    rw [seen_append]
    obtain hd | hseen := h.waits i hi
    · obtain he | hseen := h'.waits i hd
      · exact Or.inl he
      · exact Or.inr (Or.inr hseen)
    · exact Or.inr (Or.inl hseen)
  awake i hi := by
    rw [seen_append]
    obtain hd | hseen := h.awake i hi
    · obtain he | hseen := h'.awake i hd
      · exact Or.inl he
      · exact Or.inr (Or.inr hseen)
    · exact Or.inr (Or.inl hseen)
  wakes := by
    intro ⟨s, hs, hcommit⟩ i hi
    rw [seen_append]
    rcases List.mem_append.mp hs with hs | hs
    · obtain hd | hseen := h.wakes ⟨s, hs, hcommit⟩ i hi
      · obtain he | hseen := h'.awake i hd
        · exact Or.inl he
        · exact Or.inr (Or.inr hseen)
      · exact Or.inr (Or.inl hseen)
    · obtain hd | hseen := h.waits i hi
      · obtain he | hseen := h'.wakes ⟨s, hs, hcommit⟩ i hd
        · exact Or.inl he
        · exact Or.inr (Or.inr hseen)
      · exact Or.inr (Or.inl hseen)
  knows past hpast := by
    rw [← List.append_assoc]
    exact h'.knows _ (h.knows past hpast)

end Leads

/-! ## One look -/

/-- The other jobs are as they were, but that a commit wakes them; the job itself sleeps, or it has
ended. -/
theorem getElem?_evaluate (hj : c.jobs[id]? = some j) (i : Nat) :
    (c.evaluate id j).1.jobs[i]? = c.jobs[i]?.map fun k =>
      { k with
        live := k.live && (i ≠ id || (j.verdict c.value).outcome? = none)
        woken := match j.verdict c.value with
          | .commit _ _ => true
          | _ => k.woken && i ≠ id } := by
  unfold evaluate
  cases hv : j.verdict c.value with
  | commit value outcome =>
    by_cases hi : i = id
    · subst hi
      simp [wakeAll, retire, modify, Array.getElem?_modify, hj, Verdict.outcome?]
    · cases hk : c.jobs[i]? <;>
        simp [wakeAll, retire, modify, Array.getElem?_modify, Ne.symm hi, hi, hk]
  | observe outcome =>
    by_cases hi : i = id
    · subst hi
      simp [retire, modify, Array.getElem?_modify, hj, Verdict.outcome?]
    · cases hk : c.jobs[i]? <;> simp [retire, modify, Array.getElem?_modify, Ne.symm hi, hi, hk]
  | retry =>
    by_cases hi : i = id
    · subst hi
      simp [modify, Array.getElem?_modify, hj, Verdict.outcome?]
    · cases hk : c.jobs[i]? <;> simp [modify, Array.getElem?_modify, Ne.symm hi, hi, hk]

theorem goals_evaluate (hj : c.jobs[id]? = some j) : (c.evaluate id j).1.goals = c.goals := by
  refine List.ext_getElem? fun i => ?_
  simp only [goals, List.getElem?_map, Array.getElem?_toList, getElem?_evaluate hj, Option.map_map]
  rfl

/-- A job takes what it wanted, or it takes nothing. -/
theorem write_verdict (hj : c.jobs[id]? = some j) (more : List Goal) :
    (j.verdict c.value).write c.value =
      c.value - taken (c.goals ++ more) (c.evaluate id j).2 := by
  have hgoal : (c.goals ++ more)[id]? = some j.goal := by
    have hown : c.goals[id]? = some j.goal := by
      simp only [goals, List.getElem?_map, Array.getElem?_toList, hj, Option.map_some]
    rwa [List.getElem?_append_left (List.getElem?_eq_some_iff.mp hown).1]
  rw [settled_evaluate]
  rcases j with ⟨n | n, live, woken, cancelled⟩
  · simp only [Job.verdict]
    split_ifs with hn hcancelled
    · simp [Verdict.write, Verdict.outcome?, taken, Settled.amount, hgoal, Goal.amount]
    · simp [Verdict.write, Verdict.outcome?, taken, Settled.amount]
    · simp [Verdict.write, Verdict.outcome?, taken]
  · simp only [Job.verdict]
    split_ifs with hn
    · simp [Verdict.write, Verdict.outcome?, taken, Settled.amount]
    · simp [Verdict.write, Verdict.outcome?, taken]

theorem evaluations_evaluate (c : Counter) (id : Nat) (j : Job) :
    (c.evaluate id j).1.evaluations = c.evaluations + 1 := by
  unfold evaluate
  cases j.verdict c.value <;> rfl

theorem seen_singleton {value : Int64} : Seen i [.looked id value] ↔ i = id := by
  simp [Seen]

/-- A job that ends without a commit was only waiting for an amount. -/
theorem exists_commit (h : ∃ s ∈ (c.evaluate id j).2, s.outcome ≠ .held) :
    ∃ value outcome, j.verdict c.value = .commit value outcome := by
  obtain ⟨s, hs, houtcome⟩ := h
  rw [settled_evaluate] at hs
  rcases j with ⟨n | n, live, woken, cancelled⟩
  · simp only [Job.verdict] at hs ⊢
    split_ifs at hs ⊢
    · exact ⟨_, _, rfl⟩
    · exact ⟨_, _, rfl⟩
    · simp [Verdict.outcome?] at hs
  · simp only [Job.verdict] at hs
    split_ifs at hs
    · simp only [Verdict.outcome?, Option.toList_some, List.map_cons, List.map_nil,
        List.mem_singleton] at hs
      exact absurd (congrArg Settled.outcome hs) houtcome
    · simp [Verdict.outcome?] at hs

/-- After a look the history tells it, and of the other jobs what it told before. -/
theorem knows_evaluate (hj : c.jobs[id]? = some j) (h : ∀ i, i ≠ id → c.Knows past i) (i : Nat) :
    (c.evaluate id j).1.Knows (past ++ [.looked id c.value]) i := by
  cases hv : j.verdict c.value with
  | commit value outcome =>
    -- Nobody sleeps after a commit.
    intro k hk _ hwoken
    rw [getElem?_evaluate hj, hv] at hk
    obtain ⟨m, -, rfl⟩ := Option.map_eq_some_iff.mp hk
    cases hwoken
  | observe outcome =>
    by_cases hi : i = id
    · intro k hk hlive _
      rw [getElem?_evaluate hj, hv] at hk
      obtain ⟨m, -, rfl⟩ := Option.map_eq_some_iff.mp hk
      simp [hi, Verdict.outcome?] at hlive
    · refine (h i hi).append ?_ (by simpa [seen_singleton] using hi) fun k hk hlive hwoken => ?_
      · rw [value_evaluate, hv]
        simp [Verdict.write, slips]
      · rw [getElem?_evaluate hj, hv] at hk
        obtain ⟨m, hm, rfl⟩ := Option.map_eq_some_iff.mp hk
        simp only [hi, ne_eq, not_false_eq_true, decide_true, Bool.true_or, Bool.and_true] at *
        exact ⟨m, hm, hlive, hwoken, rfl⟩
  | retry =>
    by_cases hi : i = id
    · subst hi
      intro k hk _ _
      rw [getElem?_evaluate hj, hj] at hk
      obtain rfl := Option.some.inj hk
      refine ⟨c.value, [], lastLook_concat past i c.value, ?_, (Job.verdict_eq_retry_iff.mp hv).1⟩
      rw [value_evaluate, hv]
      simp [Verdict.write, slips]
    · refine (h i hi).append ?_ (by simpa [seen_singleton] using hi) fun k hk hlive hwoken => ?_
      · rw [value_evaluate, hv]
        simp [Verdict.write, slips]
      · rw [getElem?_evaluate hj, hv] at hk
        obtain ⟨m, hm, rfl⟩ := Option.map_eq_some_iff.mp hk
        simp only [hi, ne_eq, not_false_eq_true, decide_true, Bool.true_or, Bool.and_true] at *
        exact ⟨m, hm, hlive, hwoken, rfl⟩

/-- **One look** at a job that is left. -/
theorem leads_evaluate (hj : c.jobs[id]? = some j) (hlive : j.live = true) :
    c.Leads (c.evaluate id j).1 [.looked id c.value] (c.evaluate id j).2 where
  evaluations := c.evaluations_evaluate id j
  goals := goals_evaluate hj
  value more := (value_evaluate c id j).trans (write_verdict hj more)
  numLive := numLive_evaluate hj hlive
  waits i := by
    intro ⟨k, hk, hklive⟩
    rw [seen_singleton]
    by_cases hi : i = id
    · exact Or.inr hi
    · refine Or.inl ⟨_, by rw [getElem?_evaluate hj, hk]; rfl, ?_⟩
      simp [hklive, hi]
  awake i := by
    intro ⟨k, hk, hklive, hwoken⟩
    rw [seen_singleton]
    by_cases hi : i = id
    · exact Or.inr hi
    · refine Or.inl ⟨_, by rw [getElem?_evaluate hj, hk]; rfl, ?_, ?_⟩
      · simp [hklive, hi]
      · cases j.verdict c.value <;> simp [hwoken, hi]
  wakes h i := by
    intro ⟨k, hk, hklive⟩
    obtain ⟨value, outcome, hv⟩ := exists_commit h
    rw [seen_singleton]
    by_cases hi : i = id
    · exact Or.inr hi
    · refine Or.inl ⟨_, by rw [getElem?_evaluate hj, hk]; rfl, ?_, ?_⟩
      · simp [hklive, hi]
      · simp [hv]
  knows past h := knows_evaluate hj fun i _ => h i

/-! ## Passes -/

theorem consider_due_cases (c : Counter) (id : Nat) :
    (∃ j, c.jobs[id]? = some j ∧ j.isDue = true ∧ c.consider Job.isDue id = c.evaluate id j ∧
        c.considerMarks id = [.looked id c.value]) ∨
      ((∀ j, c.jobs[id]? = some j → j.isDue = false) ∧ c.consider Job.isDue id = (c, []) ∧
        c.considerMarks id = []) := by
  unfold consider considerMarks
  cases hj : c.jobs[id]? with
  | none => exact Or.inr ⟨by simp, rfl, rfl⟩
  | some j =>
    cases hdue : j.isDue with
    | true => exact Or.inl ⟨j, rfl, hdue, by simp [hdue], by simp [hdue]⟩
    | false => exact Or.inr ⟨by simpa using hdue, by simp [hdue], by simp [hdue]⟩

theorem leads_consider (c : Counter) (id : Nat) :
    c.Leads (c.consider Job.isDue id).1 (c.considerMarks id) (c.consider Job.isDue id).2 := by
  obtain ⟨j, hj, hdue, heq, hmarks⟩ | ⟨-, heq, hmarks⟩ := c.consider_due_cases id
  · rw [heq, hmarks]
    exact leads_evaluate hj (Bool.and_eq_true_iff.mp hdue).1
  · rw [heq, hmarks]
    exact .refl c

theorem leads_pass (ids : List Nat) (c : Counter) :
    c.Leads (pass Job.isDue ids c).1 (passMarks ids c) (pass Job.isDue ids c).2 := by
  induction ids generalizing c with
  | nil => exact .refl c
  | cons id rest ih => exact (c.leads_consider id).trans (ih _)

theorem leads_passes (fuel : Nat) (c : Counter) :
    c.Leads (passes Job.isDue fuel c).1 (passesMarks fuel c) (passes Job.isDue fuel c).2 := by
  induction fuel generalizing c with
  | zero => exact .refl c
  | succ fuel ih =>
    have hpass := leads_pass (List.range c.jobs.size) c
    simp only [passes, passesMarks]
    split
    case isTrue hended =>
      rw [List.isEmpty_iff.mp hended] at hpass
      rwa [List.append_nil]
    case isFalse hended => exact hpass.trans (ih _)

/-- A pass that ends nobody leaves no job due of those that it came by. -/
theorem due_of_pass_eq_nil {ids : List Nat} (h : (pass Job.isDue ids c).2 = [])
    (hj : (pass Job.isDue ids c).1.jobs[i]? = some j) (hdue : j.isDue = true) :
    i ∉ ids ∧ ∃ k, c.jobs[i]? = some k ∧ k.isDue = true := by
  induction ids generalizing c with
  | nil => exact ⟨List.not_mem_nil, j, hj, hdue⟩
  | cons id rest ih =>
    obtain ⟨hfirst, hlater⟩ : (c.consider Job.isDue id).2 = [] ∧
        (pass Job.isDue rest (c.consider Job.isDue id).1).2 = [] := List.append_eq_nil_iff.mp h
    obtain ⟨hrest, k, hk, hkdue⟩ := ih hlater hj
    obtain ⟨m, hm, -, heq, -⟩ | ⟨hnot, heq, -⟩ := c.consider_due_cases id
    · rw [heq] at hfirst hk
      have hretry := retry_of_evaluate_eq_nil hfirst
      rw [getElem?_evaluate hm, hretry] at hk
      obtain ⟨n, hn, rfl⟩ := Option.map_eq_some_iff.mp hk
      -- The job that was looked at sleeps, and it was not cancelled, or it would have ended.
      have hne : i ≠ id := by
        intro hi
        subst hi
        obtain rfl := Option.some.inj (hm.symm.trans hn)
        obtain ⟨-, hcancelled⟩ := Job.verdict_eq_retry_iff.mp hretry
        simp only [Job.isDue, ne_eq, not_true_eq_false, decide_false, Bool.and_false,
          Bool.false_or, Bool.and_eq_true] at hkdue
        obtain ⟨-, hiscancelled, hcancellable⟩ := hkdue
        rw [hcancelled hcancellable] at hiscancelled
        cases hiscancelled
      refine ⟨by simp [hne, hrest], n, hn, ?_⟩
      simpa [Job.isDue, hne, Verdict.outcome?] using hkdue
    · rw [heq] at hk
      refine ⟨?_, k, hk, hkdue⟩
      rw [List.mem_cons]
      intro hi
      rcases hi with rfl | hi
      · exact Bool.noConfusion ((hnot k hk).symm.trans hkdue)
      · exact hrest hi

/-- **The passes go on until no job is due.** Each but the last ends a job. -/
theorem sleeps_passes {fuel : Nat} (hfuel : c.numLive < fuel) :
    (passes Job.isDue fuel c).1.Sleeps := by
  induction fuel generalizing c with
  | zero => exact absurd hfuel (Nat.not_lt_zero _)
  | succ fuel ih =>
    have hnum := (leads_pass (List.range c.jobs.size) c).numLive
    simp only [passes]
    split
    case isTrue hended =>
      intro i j hj
      by_contra hdue
      obtain ⟨hnot, k, hk, -⟩ :=
        due_of_pass_eq_nil (List.isEmpty_iff.mp hended) hj (by simpa using hdue)
      exact hnot (List.mem_range.mpr (Array.getElem?_eq_some_iff.mp hk).1)
    case isFalse hended =>
      have hpos := List.length_pos_iff.mpr fun h => hended (List.isEmpty_iff.mpr h)
      exact ih (by omega)

theorem Sleeps.pass_eq (h : c.Sleeps) (ids : List Nat) : pass Job.isDue ids c = (c, []) := by
  induction ids with
  | nil => rfl
  | cons id rest ih =>
    obtain ⟨j, hj, hdue, -, -⟩ | ⟨-, heq, -⟩ := c.consider_due_cases id
    · exact Bool.noConfusion ((h id j hj).symm.trans hdue)
    · simp only [pass, heq, ih, List.append_nil]

theorem Sleeps.settle_eq (h : c.Sleeps) : c.settle Job.isDue = (c, []) := by
  simp [settle, passes, h.pass_eq]

/-! ## Steps -/

/-- What is done to the counter by a step, from `c` to `d`, with what it adds to the history and the
jobs that it ends. -/
structure Does (c : Counter) (what : Step) (d : Counter) (marks : List Mark)
    (ended : List Settled) : Prop where
  evaluations : d.evaluations = c.evaluations + numLooks marks
  goals : d.goals = c.goals ++ Step.goals [what]
  value : ∀ more, d.value = c.value + what.added - taken (d.goals ++ more) ended
  wakes : ((∃ n, what = .add n) ∨ ∃ s ∈ ended, s.outcome ≠ .held) →
    ∀ i, c.Waits i → d.Awake i ∨ Seen i marks
  /-- Only a job that is given up ends without being looked at. -/
  waits : ∀ i, what ≠ .abandon i → c.Waits i → d.Waits i ∨ Seen i marks
  knows : ∀ past, (∀ i, c.Knows past i) → ∀ i, d.Knows (past ++ marks) i

theorem goals_modify (c : Counter) (id : Nat) {f : Job → Job} (hf : ∀ j, (f j).goal = j.goal) :
    (c.modify id f).goals = c.goals := by
  refine List.ext_getElem? fun i => ?_
  simp only [goals, List.getElem?_map, Array.getElem?_toList, modify, Array.getElem?_modify]
  split
  · simp only [Option.map_map, Function.comp_def, hf]
  · rfl

/-- To change marks of a job that it does not sleep with changes nothing of what is known. -/
theorem Knows.modify (h : c.Knows past i) {f : Job → Job}
    (hf : ∀ j, (f j).goal = j.goal ∧ ((f j).live = true → j.live = true) ∧
      (f j).woken = j.woken) : (c.modify id f).Knows past i := by
  have hsame : (c.modify id f).Knows (past ++ []) i := by
    refine h.append (by simp [slips, Counter.modify]) (by simp [Seen]) fun k hk hlive hwoken => ?_
    rw [Counter.modify, Array.getElem?_modify] at hk
    split at hk
    · obtain ⟨m, hm, rfl⟩ := Option.map_eq_some_iff.mp hk
      obtain ⟨hgoal, hlive', hwoken'⟩ := hf m
      exact ⟨m, hm, hlive' hlive, hwoken' ▸ hwoken, hgoal.symm⟩
    · exact ⟨k, hk, hlive, hwoken, rfl⟩
  simpa using hsame

theorem Waits.modify (h : c.Waits i) {f : Job → Job} (hf : i = id → ∀ j, (f j).live = j.live) :
    (c.modify id f).Waits i := by
  obtain ⟨k, hk, hlive⟩ := h
  by_cases hi : i = id
  · subst hi
    refine ⟨f k, ?_, by rw [hf rfl, hlive]⟩
    rw [Counter.modify, Array.getElem?_modify, if_pos rfl, hk, Option.map_some]
  · exact ⟨k, by rw [getElem?_modify_of_ne hi, hk], hlive⟩

theorem awake_wakeAll {value : Int64} (h : c.Waits i) :
    ({ c.wakeAll with value := value } : Counter).Awake i := by
  obtain ⟨k, hk, hlive⟩ := h
  exact ⟨{ k with woken := true }, by simp [wakeAll, hk], hlive, rfl⟩

theorem does_add (c : Counter) (n : Int64) :
    c.Does (.add n) { c.wakeAll with value := c.value + n } [] [] where
  evaluations := rfl
  goals := by simp [Counter.goals, wakeAll, Step.goals]
  value more := by simp [Step.added, taken]
  wakes _ i hi := Or.inl (awake_wakeAll hi)
  waits i _ hi := Or.inl ((awake_wakeAll hi).imp fun j hj => ⟨hj.1, hj.2.1⟩)
  knows past _ i j hj _ hwoken := by
    simp only [wakeAll, Array.getElem?_map, Option.map_eq_some_iff] at hj
    obtain ⟨k, -, rfl⟩ := hj
    cases hwoken

theorem does_fail (c : Counter) (n : Int64) :
    c.Does (.fail n) { c with value := c.value + n } [.slipped n] [] where
  evaluations := rfl
  goals := by simp [Counter.goals, Step.goals]
  value more := by simp [Step.added, taken]
  wakes h := by simp at h
  waits i _ hi := Or.inl hi
  knows past h i := by
    refine (h i).append (by simp [slips]) (by simp [Seen]) fun j hj hlive hwoken => ?_
    exact ⟨j, hj, hlive, hwoken, rfl⟩

theorem does_begin (c : Counter) (goal : Goal) :
    let pushed : Counter := { c with jobs := c.jobs.push (Job.new goal) }
    c.Does (.begin goal) (pushed.evaluate c.jobs.size (Job.new goal)).1
      [.looked c.jobs.size c.value] (pushed.evaluate c.jobs.size (Job.new goal)).2 := by
  intro pushed
  have hnew : pushed.jobs[c.jobs.size]? = some (Job.new goal) := Array.getElem?_push_size
  have hold : ∀ i, i ≠ c.jobs.size → pushed.jobs[i]? = c.jobs[i]? := by
    intro i hi
    exact Array.getElem?_push.trans (if_neg hi)
  have hwaits : ∀ i, c.Waits i → pushed.Waits i := by
    intro i ⟨k, hk, hlive⟩
    have hi : i ≠ c.jobs.size := (Array.getElem?_eq_some_iff.mp hk).1.ne
    exact ⟨k, (hold i hi).trans hk, hlive⟩
  have hleads := leads_evaluate hnew rfl
  have hgoals : pushed.goals = c.goals ++ [goal] := by simp [Counter.goals, pushed, Job.new]
  refine ⟨hleads.evaluations, hleads.goals.trans hgoals, fun more => ?_, fun h i hi => ?_,
    fun i _ hi => hleads.waits i (hwaits i hi), fun past h => knows_evaluate hnew fun i hi => ?_⟩
  · rw [hleads.goals, hleads.value more]
    simp [Step.added, pushed]
  · simp only [reduceCtorEq, exists_false, false_or] at h
    exact hleads.wakes h i (hwaits i hi)
  · intro j hj
    rw [hold i hi] at hj
    exact h i j hj

theorem does_cancel (c : Counter) (id : Nat) :
    c.Does (.cancel id) (c.modify id fun j => { j with cancelled := true }) [] [] where
  evaluations := rfl
  goals := by
    refine Eq.trans ?_ (List.append_nil _).symm
    exact c.goals_modify id fun _ => rfl
  value more := by simp [Step.added, taken, modify]
  wakes h := by simp at h
  waits i _ hi := Or.inl (hi.modify fun _ _ => rfl)
  knows past h i := by
    rw [List.append_nil]
    exact (h i).modify fun _ => ⟨rfl, fun hlive => hlive, rfl⟩

theorem does_abandon (c : Counter) (id : Nat) : c.Does (.abandon id) (c.retire id) [] [] where
  evaluations := rfl
  goals := by
    refine Eq.trans ?_ (List.append_nil _).symm
    exact c.goals_modify id fun _ => rfl
  value more := by simp [Step.added, taken, retire, modify]
  wakes h := by simp at h
  waits i hwhat hi := Or.inl (hi.modify fun heq => absurd (heq ▸ rfl) hwhat)
  knows past h i := by
    rw [List.append_nil]
    exact (h i).modify fun _ => ⟨rfl, fun hlive => Bool.noConfusion hlive, rfl⟩

/-- **What a step does before the other jobs are looked at.** -/
theorem does_perform (c : Counter) (what : Step) :
    c.Does what (c.perform what).1 (c.performMarks what) (c.perform what).2.2 := by
  cases what with
  | add n => exact c.does_add n
  | read =>
    refine ⟨rfl, (List.append_nil _).symm, fun more => ?_, by simp [perform], fun i _ => Or.inl, ?_⟩
    · simp [Step.added, taken, perform]
    · intro past h i
      exact (List.append_nil past).symm ▸ h i
  | fail n => exact c.does_fail n
  | begin goal => exact c.does_begin goal
  | cancel id => exact c.does_cancel id
  | abandon id => exact c.does_abandon id

theorem Sleeps.retire (h : c.Sleeps) (id : Nat) : (c.retire id).Sleeps := by
  intro i j hj
  rw [Counter.retire, modify, Array.getElem?_modify] at hj
  split at hj
  · obtain ⟨k, -, rfl⟩ := Option.map_eq_some_iff.mp hj
    rfl
  · exact h i j hj

theorem Sleeps.not_awake (h : c.Sleeps) (i : Nat) : ¬ c.Awake i := by
  intro ⟨j, hj, hlive, hwoken⟩
  have hdue := h i j hj
  simp [Job.isDue, hlive, hwoken] at hdue

theorem settled_step (c : Counter) (what : Step) :
    (c.step what).2.settled =
      (c.perform what).2.2 ++ ((c.perform what).1.settle Job.isDue).2 := rfl

/-- **A commit has every job looked at** that is left, in the same step. -/
theorem seen_of_commits (hsleeps : c.Sleeps) (hcommits : what.Commits (c.step what).2)
    (hi : c.Waits i) : Seen i (c.stepMarks what) := by
  have hdoes := c.does_perform what
  have hleads := leads_passes ((c.perform what).1.numLive + 1) (c.perform what).1
  have hrest := (sleeps_passes (Nat.lt_succ_self (c.perform what).1.numLive)).not_awake i
  rw [stepMarks, seen_append]
  by_cases hgive : what = .abandon i
  · -- After a job was given up no job is due, and so there is no commit.
    subst hgive
    obtain ⟨n, hn⟩ | ⟨ended, hended, -⟩ := hcommits
    · cases hn
    · have hnobody : (c.step (.abandon i)).2.settled = [] :=
        congrArg Prod.snd (hsleeps.retire i).settle_eq
      rw [hnobody] at hended
      cases hended
  · have hwakes : (c.perform what).1.Awake i ∨ Seen i (c.performMarks what) ∨
        ∃ ended ∈ ((c.perform what).1.settle Job.isDue).2, ended.outcome ≠ .held := by
      obtain hadd | ⟨ended, hended, hcommit⟩ := hcommits
      · exact (hdoes.wakes (Or.inl hadd) i hi).imp_right Or.inl
      · rw [settled_step] at hended
        rcases List.mem_append.mp hended with hended | hended
        · exact (hdoes.wakes (Or.inr ⟨ended, hended, hcommit⟩) i hi).imp_right Or.inl
        · exact Or.inr (Or.inr ⟨ended, hended, hcommit⟩)
    obtain hawake | hseen | hcommit := hwakes
    · exact Or.inr ((hleads.awake i hawake).resolve_left hrest)
    · exact Or.inl hseen
    · obtain hwaits | hseen := hdoes.waits i hgive hi
      · exact Or.inr ((hleads.wakes hcommit i hwaits).resolve_left hrest)
      · exact Or.inl hseen

/-- **A step** that is done to a counter of which no job is due: what it writes, and what it adds to
the history. -/
theorem balance_step (c : Counter) (what : Step) :
    (c.step what).1.goals = c.goals ++ Step.goals [what] ∧
      (c.step what).1.evaluations = c.evaluations + numLooks (c.stepMarks what) ∧
      (∀ more, (c.step what).1.value =
        c.value + what.added - taken ((c.step what).1.goals ++ more) (c.step what).2.settled) ∧
      ∀ past, (∀ i, c.Knows past i) → ∀ i, (c.step what).1.Knows (past ++ c.stepMarks what) i := by
  have hdoes := c.does_perform what
  have hleads := leads_passes ((c.perform what).1.numLive + 1) (c.perform what).1
  have hgoals : (c.step what).1.goals = (c.perform what).1.goals := hleads.goals
  refine ⟨hgoals.trans hdoes.goals, ?_, fun more => ?_, fun past h i => ?_⟩
  · rw [stepMarks, numLooks_append, ← Nat.add_assoc, ← hdoes.evaluations]
    exact hleads.evaluations
  · have hlater : (c.step what).1.value = (c.perform what).1.value -
        taken ((c.perform what).1.goals ++ more) ((c.perform what).1.settle Job.isDue).2 :=
      hleads.value more
    rw [hlater, hdoes.value more, hgoals, settled_step, taken_append]
    generalize taken _ (c.perform what).2.2 = before
    generalize taken _ _ = after
    grind
  · rw [stepMarks, ← List.append_assoc]
    exact hleads.knows _ (hdoes.knows past h) i

/-! ## Runs -/

theorem goals_cons (what : Step) (rest : List Step) :
    Step.goals (what :: rest) = Step.goals [what] ++ Step.goals rest := by
  simp only [Step.goals, ← List.filterMap_append, List.singleton_append]

/-- What a run writes and what it adds to the history, from a counter of which no job is due. -/
theorem balance_run (hsleeps : c.Sleeps) (hknows : ∀ i, c.Knows past i) (steps : List Step) :
    let r := c.run steps
    r.1.Sleeps ∧ r.1.evaluations = c.evaluations + numLooks (c.marks steps) ∧
      r.1.value = c.value + (steps.map Step.added).sum -
        taken (c.goals ++ Step.goals steps) (r.2.flatMap Answer.settled) ∧
      ∀ i, r.1.Knows (past ++ c.marks steps) i := by
  induction steps generalizing c past with
  | nil =>
    refine ⟨hsleeps, rfl, ?_, fun i => (List.append_nil past).symm ▸ hknows i⟩
    simp [run, runWith, taken]
  | cons what rest ih =>
    intro r
    obtain ⟨hgoals, hlooks, hvalue, hstays⟩ := c.balance_step what
    have hrest : (c.step what).1.Sleeps := sleeps_passes (Nat.lt_succ_self _)
    obtain ⟨hend, hmore, hfinal, hall⟩ := ih hrest (hstays past hknows)
    refine ⟨hend, ?_, ?_, fun i => ?_⟩
    · rw [marks, numLooks_append, ← Nat.add_assoc, ← hlooks]
      exact hmore
    · have hlast : r.1.value = _ := hfinal
      have hfirst := hvalue (Step.goals rest)
      rw [hgoals, List.append_assoc, ← goals_cons] at hfirst
      rw [hgoals, List.append_assoc, ← goals_cons] at hlast
      have hsettled : r.2.flatMap Answer.settled = (c.step what).2.settled ++
          ((c.step what).1.run rest).2.flatMap Answer.settled := rfl
      rw [hlast, hfirst, hsettled, taken_append, List.map_cons, List.sum_cons]
      generalize taken _ (c.step what).2.settled = before
      generalize taken _ _ = after
      grind
    · rw [marks, ← List.append_assoc]
      exact hall i

/-- **No update is lost, and a transaction that fails half-way does no further harm.** After any
steps, among them some that fail half-way, the counter is what it was at first, and all that was
added, less what the jobs that ended took. It is this value that the next step works on: what is
added is added to it, what is read is it, and a job that begins sees it. The history tells every
look at a job, and for a job that is left it tells a last one, which saw too little; the counter is
what this look saw, and what has slipped in since. So if the counter is enough by now for a job that
is left, a transaction has failed since the last look at it. And the next step that commits,
whatever it is and even if it adds nothing, has the job looked at. -/
theorem no_update_is_lost (init : Int64) (steps : List Step) :
    let r := (new init).run steps
    let history := (new init).marks steps
    r.1.value = init + (steps.map Step.added).sum -
        taken (Step.goals steps) (r.2.flatMap Answer.settled) ∧
      (∀ n, (r.1.step (.add n)).2.reply = .value r.1.value) ∧
      (r.1.step .read).2.reply = .value r.1.value ∧
      (∀ goal, (r.1.stepMarks (.begin goal)).head? = some (.looked r.1.jobs.size r.1.value)) ∧
      r.1.evaluations = numLooks history ∧
      ∀ (i : Nat) (j : Job), r.1.jobs[i]? = some j → j.live = true →
        (∃ value since, LastLook history i value since ∧ value < j.goal.amount ∧
          r.1.value = value + slips since ∧
          (j.goal.amount ≤ r.1.value → ∃ n, Mark.slipped n ∈ since)) ∧
        ∀ what, what.Commits (r.1.step what).2 → Seen i (r.1.stepMarks what) := by
  intro r history
  have hstart : (new init).Sleeps := fun i j hj => absurd hj (by simp [new])
  have hknows : ∀ i, (new init).Knows [] i := fun i j hj => absurd hj (by simp [new])
  obtain ⟨hsleeps, hlooks, hvalue, hall⟩ := balance_run hstart hknows steps
  refine ⟨hvalue, fun n => rfl, rfl, fun goal => rfl, hlooks.trans (Nat.zero_add _), ?_⟩
  intro i j hj hlive
  refine ⟨?_, fun what hcommits => seen_of_commits hsleeps hcommits ⟨j, hj, hlive⟩⟩
  have hwoken : j.woken = false := by
    by_contra hwoken
    exact hsleeps.not_awake i ⟨j, hj, hlive, by simpa using hwoken⟩
  obtain ⟨value, since, hlast, hsaw, hless⟩ := hall i j hj hlive hwoken
  refine ⟨value, since, hlast, hless, hsaw, fun henough => ?_⟩
  -- If nothing had slipped in, the counter would still be what was too little.
  by_contra hnone
  rw [hsaw, slips_eq_zero fun n hn => hnone ⟨n, hn⟩, Int64.add_zero] at henough
  exact Int64.not_le.mpr hless henough

end Admission.Counter
