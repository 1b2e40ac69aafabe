/-!
# A shared counter with transactions that block

The simplest thing a transactional store can hold is a number. Some callers change it and are done;
others want something of it and block until they get it: `take n` waits until the counter is at
least `n` and subtracts `n`, `reach n` only waits. Arithmetic wraps in 64 bits.

A job that blocks is not looked at again until it is *woken*: every commit wakes all jobs. A commit
is an addition, or a job that took something or was cancelled; a read, a job that only waited, and
a transaction that failed half-way are none. A failed transaction keeps what it had written, so
afterwards a job may sleep although it could go on; the next commit wakes it.

Which jobs a pass looks at is a parameter of the scheduler. `step` looks at the jobs that are due;
`stepPolling` looks at every job that is left, and is what `step` is measured against.
-/

set_option autoImplicit false

namespace Admission

namespace Counter

/-- What a job wants of the counter. -/
inductive Goal where
  /-- Wait until the counter is at least `n`, and subtract `n`. -/
  | take (n : Int64)
  /-- Wait until the counter is at least `n`. -/
  | reach (n : Int64)
deriving DecidableEq, Repr

/-- How a job ended. -/
inductive Outcome where
  | taken
  | cancelled
  | held
deriving DecidableEq, Repr

def Outcome.text : Outcome → String
  | taken => "taken"
  | cancelled => "cancelled"
  | held => "held"

/-- A transaction that may block. -/
structure Job where
  goal : Goal
  /-- Neither ended nor given up. -/
  live : Bool
  /-- Has there been a commit since the job was last looked at? -/
  woken : Bool
  cancelled : Bool
deriving DecidableEq, Repr

/-- Can the job be cancelled? A job that only waits has no token. -/
def Goal.isCancellable : Goal → Bool
  | take _ => true
  | reach _ => false

/-- Must the job be looked at in the next pass? -/
def Job.isDue (j : Job) : Bool := j.live && (j.woken || (j.cancelled && j.goal.isCancellable))

/-- What looking at a job comes to. -/
inductive Verdict where
  /-- The job writes the counter and ends; all other jobs are woken. -/
  | commit (value : Int64) (outcome : Outcome)
  /-- The job ends without a commit. -/
  | observe (outcome : Outcome)
  | retry
deriving DecidableEq, Repr

/-- What looking at a job comes to. Whether the goal is met is asked before the token. -/
def Job.verdict (j : Job) (value : Int64) : Verdict :=
  match j.goal with
  | .take n =>
    if n ≤ value then .commit (value - n) .taken
    else if j.cancelled then .commit value .cancelled
    else .retry
  | .reach n => if n ≤ value then .observe .held else .retry

end Counter

/-- The counter and its jobs, each at the place of its number. -/
structure Counter where
  value : Int64
  jobs : Array Counter.Job
  /-- How often a job has been looked at so far. -/
  evaluations : Nat

namespace Counter

/-- A counter before the first transaction. -/
def new (value : Int64) : Counter := ⟨value, #[], 0⟩

/-- A job that ended: its number and how. -/
structure Settled where
  id : Nat
  outcome : Outcome
deriving DecidableEq, Repr

/-- Wakes all jobs. -/
def wakeAll (c : Counter) : Counter :=
  { c with jobs := c.jobs.map fun j => { j with woken := true } }

/-- Changes one job. -/
def modify (c : Counter) (id : Nat) (f : Job → Job) : Counter :=
  { c with jobs := c.jobs.modify id f }

/-- Ends a job. -/
def retire (c : Counter) (id : Nat) : Counter := c.modify id fun j => { j with live := false }

/-- Looks at a job. -/
def evaluate (c : Counter) (id : Nat) (j : Job) : Counter × List Settled :=
  let asleep := c.modify id fun j => { j with woken := false }
  let counted := { asleep with evaluations := c.evaluations + 1 }
  match j.verdict c.value with
  | .commit value outcome =>
    ({ (counted.retire id).wakeAll with value := value }, [⟨id, outcome⟩])
  | .observe outcome => (counted.retire id, [⟨id, outcome⟩])
  | .retry => (counted, [])

/-- Looks at a job if the scheduler chooses it. -/
def consider (chosen : Job → Bool) (c : Counter) (id : Nat) : Counter × List Settled :=
  match c.jobs[id]? with
  | none => (c, [])
  | some j => if chosen j then c.evaluate id j else (c, [])

/-- Looks at jobs one after another. -/
def pass (chosen : Job → Bool) : List Nat → Counter → Counter × List Settled
  | [], c => (c, [])
  | id :: rest, c =>
    let (c₁, ended) := c.consider chosen id
    let (c₂, later) := pass chosen rest c₁
    (c₂, ended ++ later)

/-- The jobs that are left. -/
def numLive (c : Counter) : Nat := (c.jobs.toList.filter (·.live)).length

/-- At most `fuel` passes, ending after one in which no job ended. -/
def passes (chosen : Job → Bool) : Nat → Counter → Counter × List Settled
  | 0, c => (c, [])
  | fuel + 1, c =>
    let (c₁, ended) := pass chosen (List.range c.jobs.size) c
    if ended.isEmpty then (c₁, [])
    else
      let (c₂, later) := passes chosen fuel c₁
      (c₂, ended ++ later)

/-- Passes until one ends no job. Each pass but the last ends a job. -/
def settle (chosen : Job → Bool) (c : Counter) : Counter × List Settled :=
  passes chosen (c.numLive + 1) c

/-! ## Steps -/

/-- One thing that is done to the counter. -/
inductive Step where
  /-- Add to the counter. -/
  | add (n : Int64)
  | read
  /-- Add to the counter and fail before the end of the transaction. -/
  | fail (n : Int64)
  /-- Begin a job. -/
  | begin (goal : Goal)
  /-- Cancel the token of a job. -/
  | cancel (id : Nat)
  /-- Give a job up. -/
  | abandon (id : Nat)
deriving DecidableEq, Repr

/-- The result of a step. -/
inductive Reply where
  | nothing
  /-- The counter before an addition, or as it was read. -/
  | value (n : Int64)
  /-- The number of a new job. -/
  | started (id : Nat)
  /-- The transaction failed. -/
  | failed
deriving DecidableEq, Repr

/-- The message of a transaction that failed. -/
def failureMessage : String := "transaction failure"

/-- What a step answers. -/
structure Answer where
  reply : Reply
  settled : List Settled
  /-- The counter after the step. -/
  value : Int64
  evaluations : Nat
deriving DecidableEq, Repr

/-- A job that has just begun. -/
def Job.new (goal : Goal) : Job := ⟨goal, true, false, false⟩

/-- The effect of a step before the other jobs are looked at. -/
def perform (c : Counter) : Step → Counter × Reply × List Settled
  | .add n => ({ c.wakeAll with value := c.value + n }, .value c.value, [])
  | .read => (c, .value c.value, [])
  | .fail n => ({ c with value := c.value + n }, .failed, [])
  | .begin goal =>
    let id := c.jobs.size
    let j := Job.new goal
    let (c', ended) := { c with jobs := c.jobs.push j }.evaluate id j
    (c', .started id, ended)
  | .cancel id => (c.modify id fun j => { j with cancelled := true }, .nothing, [])
  | .abandon id => (c.retire id, .nothing, [])

/-- Performs a step, and then lets the scheduler look at jobs until none ends. -/
def stepWith (chosen : Job → Bool) (c : Counter) (what : Step) : Counter × Answer :=
  let (c₁, reply, ended) := c.perform what
  let (c₂, later) := c₁.settle chosen
  (c₂,
    { reply := reply
      settled := ended ++ later
      value := c₂.value
      evaluations := c₂.evaluations })

/-- Performs a step under the scheduler that looks at the jobs that are due. -/
def step (c : Counter) (what : Step) : Counter × Answer := c.stepWith Job.isDue what

/-- Performs a step under the scheduler that looks at every job that is left. -/
def stepPolling (c : Counter) (what : Step) : Counter × Answer := c.stepWith Job.live what

/-- Performs steps one after another. -/
def runWith (chosen : Job → Bool) (c : Counter) : List Step → Counter × List Answer
  | [] => (c, [])
  | what :: rest =>
    let (c₁, answer) := c.stepWith chosen what
    let (c₂, answers) := runWith chosen c₁ rest
    (c₂, answer :: answers)

def run (c : Counter) (steps : List Step) : Counter × List Answer := c.runWith Job.isDue steps

end Counter

end Admission
