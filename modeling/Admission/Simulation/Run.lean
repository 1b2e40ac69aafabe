import Admission.Session.Call
import Admission.Session.Clock
import Admission.Session.Handle
import Admission.Session.Status
import Admission.Settings
import Admission.Simulation.Flow
import Admission.Simulation.Options

/-!
# Running a simulation

All flows call at clock zero, in order, unless there are too many of them: the rest then calls a
millisecond later (`flowsAtStart`). A flow that is let in keeps its slot for the hold time and then
releases it; a flow that is cancelled is finished at once. Half-way through the first hold time a
status is taken, and another one when the last flow is finished.

The clock moves in whole milliseconds and only to those at which something may happen. At each of
them late flows call, then the session settles, then the flows whose hold time is over release
their handles, and then a status is taken if it is time. A linger that ends at once is therefore
seen one millisecond later.

A simulation can fail to end: when flows wait, nobody will release a slot, and no timer runs.
-/

set_option autoImplicit false

namespace Admission.Simulation

/-- A simulation on its way. -/
structure Progress where
  session : Session
  /-- The flows that have not called yet. -/
  late : List Nat
  /-- The flows that keep their slots, each with the clock at which it will release it. -/
  holds : List (Nat × Nat)
  /-- The status taken half-way through the first hold time. -/
  running : Option Status
  /-- What has happened so far. -/
  events : List Event

/-- What a simulation that has ended reports. -/
structure Report where
  running : Status
  final : Status
  admitted : Nat
  cancelled : Nat
  elapsed : Span
  events : List Event
deriving DecidableEq

/-- The settings in force: those of the options before the configured ones. -/
def effective (settings : Settings) (o : Options) : Settings :=
  ⟨o.capacity.getD settings.capacity, o.linger.getD settings.linger⟩

/-- The clock at which the first status is taken. -/
def halfTime (o : Options) : Nat := Session.millisOf (timerEnd 0 o.hold.half)

/-- The clock at which a flow that was let in at `clock` releases its slot. -/
def holdEnd (o : Options) (clock : Nat) : Nat :=
  Session.millisOf (timerEnd (instantOfMillis clock) o.hold)

/-! ## The beginning -/

/-- The number of tasks that begin at clock zero. All others begin a millisecond later. -/
def tasksAtStart : Nat := 365

/-- The number of flows that call at clock zero. With deadlines there are two tasks for each flow:
first the one that waits for its deadline, and then the flow itself. -/
def flowsAtStart (o : Options) : Nat :=
  if o.deadline.isSome then tasksAtStart / 2 else tasksAtStart

/-- The deadline of a flow, counted from its call. As the number of tasks is odd, the first late
flow calls when its deadline has been running for a millisecond. -/
def deadlineOf (o : Options) (flow : Nat) : Option Span :=
  if flow = flowsAtStart o then o.deadline.map fun d => ⟨d.nanos - Span.nanosPerMilli⟩
  else o.deadline

namespace Progress

/-- The hold times that begin with some events. -/
def newHolds (o : Options) (events : List Event) : List (Nat × Nat) :=
  events.filterMap fun event =>
    match event with
    | .admitted t clock _ => some (t.id, holdEnd o clock)
    | _ => none

/-- Takes the outcome of something done to the session. -/
def record (p : Progress) (o : Options) (outcome : Session × List Event) : Progress :=
  { p with
    session := outcome.1
    holds := p.holds ++ newHolds o outcome.2
    events := p.events ++ outcome.2 }

/-- Lets a flow call. -/
def call (o : Options) (p : Progress) (flow : Nat) : Progress :=
  let priority := flowPriority flow o.priorities
  let w := p.session.newWait (flowEntry flow o.distinctCount) (flowReason priority) priority
    "flows" (deadlineOf o flow)
  p.record o (p.session.start w)

/-- The first flows have called. -/
def start (settings : Settings) (o : Options) : Progress :=
  let flows := List.range o.flows
  (flows.take (flowsAtStart o)).foldl (call o)
    { session := .new settings.capacity settings.linger, late := flows.drop (flowsAtStart o),
      holds := [], running := none, events := [] }

/-- The late flows call, unless it is too early. -/
def callLate (o : Options) (p : Progress) : Progress :=
  if p.session.clock = 0 then p else p.late.foldl (call o) { p with late := [] }

/-- The flow releases its slot. -/
def releaseFlow (s : Session) (flow : Nat) : Session × List Event :=
  match s.held? flow with
  | none => (s, [])
  | some w =>
    let (s', _, events) := s.finish w
    (s', events)

/-- The flows whose hold time is over release their slots. -/
def releaseDue (o : Options) (p : Progress) : Progress :=
  let clock := p.session.clock
  let due := (p.holds.filter fun h => h.2 ≤ clock).map (·.1)
  let p := { p with holds := p.holds.filter fun h => clock < h.2 }
  p.record o (Session.forEach releaseFlow due p.session)

/-- The clocks at which the deadlines of flows that have called pass. -/
def deadlineClocks (p : Progress) : List Nat :=
  p.session.waits.toList.filterMap fun w => w.deadlineEnd?.map Session.millisOf

/-- What is reported of the deadlines when they pass. The deadline of a flow that was let in passes
as well, though it has no effect any more. -/
def deadlineEvents (o : Options) (p : Progress) : List Event :=
  p.session.waits.toList.filterMap fun w =>
    if w.deadlineEnd?.map Session.millisOf = some p.session.clock then
      o.deadline.map (.deadlineReached w.ticket)
    else none

/-- What happens at the present clock. -/
def tick (o : Options) (p : Progress) : Progress :=
  let p := p.callLate o
  let p := { p with events := p.events ++ p.deadlineEvents o }
  let p := (p.record o p.session.settle).releaseDue o
  if p.session.clock = halfTime o then { p with running := some p.session.status } else p

/-- Are all flows finished? -/
def allFinished (p : Progress) : Bool :=
  p.late.isEmpty && p.session.pendingIds.isEmpty && p.holds.isEmpty

/-- The clock of the next millisecond at which something may happen. -/
def nextClock? (o : Options) (p : Progress) : Option Nat :=
  let clock := p.session.clock
  let timers := p.session.timers.map fun instant => max (clock + 1) (Session.millisOf instant)
  let holds := p.holds.map fun h => max (clock + 1) h.2
  let late := if p.late.isEmpty then [] else [clock + 1]
  let fixed := (halfTime o :: p.deadlineClocks).filter fun c => clock < c
  (late ++ fixed ++ holds ++ timers).min?

/-- The number of flows that were let in. -/
def numAdmitted (p : Progress) : Nat :=
  (p.session.waits.toList.filter fun w =>
    match w.phase with
    | .admitted _ _ => true
    | _ => false).length

/-- The number of flows that were cancelled. -/
def numCancelled (p : Progress) : Nat :=
  (p.session.waits.toList.filter fun w => w.phase = .cancelled).length

/-- The report of a simulation whose first status was `running`. -/
def report (p : Progress) (running : Status) : Report :=
  { running := running
    final := p.session.status
    admitted := p.numAdmitted
    cancelled := p.numCancelled
    elapsed := .ofMillis p.session.clock
    events := p.events }

/-- The same progress at another clock. -/
def atClock (p : Progress) (clock : Nat) : Progress :=
  { p with session := { p.session with clock := clock } }

/-- Goes on for at most `fuel` milliseconds at which something happens. The error is the state in
which the simulation stands still. -/
def proceed (o : Options) : Nat → Progress → Except Progress Report
  | 0, p => .error p
  | fuel + 1, p =>
    let p := p.tick o
    match p.allFinished, p.running with
    | true, some running => .ok (p.report running)
    | _, _ =>
      match p.nextClock? o with
      | none => .error p
      | some clock => proceed o fuel (p.atClock clock)

end Progress

/-- A bound for the milliseconds at which something happens: those at which flows call, the half-way
point, the ends of the deadlines, which the flows that call together share, and for each flow the
end of its hold time and that of its linger. -/
def stopBound (o : Options) : Nat := 2 * o.flows + 5

/-- Runs a simulation under given settings. The error is the state in which it stands still. -/
def run (settings : Settings) (o : Options) : Except Progress Report :=
  (Progress.start (effective settings o) o).proceed o (stopBound o)

/-! ## What a simulation prints -/

/-- A status as the simulator prints it. -/
def statusText (json : Bool) (s : Status) : String :=
  if json then s.json.tall ++ "\n" else s.text

/-- The last line of the output, without the time that the simulation took. -/
def Report.summary (r : Report) : String :=
  toString r.admitted ++ " admitted, " ++ toString r.cancelled ++ " cancelled in "

/-- The output of a simulation up to its last line. -/
def Report.outputBeforeTime (r : Report) (json : Bool) : String :=
  "== while running\n" ++ statusText json r.running ++ "\n== finished\n" ++
    statusText json r.final ++ "\n" ++ r.summary

/-- The output of a simulation. -/
def Report.output (r : Report) (json : Bool) : String :=
  r.outputBeforeTime json ++ r.elapsed.text ++ "\n"

/-- What can go wrong when a simulation is asked for. -/
inductive RunError where
  | usage (e : UsageError)
  | settings (e : SettingsError)
  /-- The simulation does not end. -/
  | endless
deriving DecidableEq

/-- The message of an error, its causes joined by colons. -/
def RunError.message : RunError → String
  | usage e => e.message
  | settings e => "reading configuration from environment: " ++ e.message
  | endless => "the simulation does not end"

/-- Runs a simulation for given arguments and a given environment. -/
def runArguments (arguments : List String) (env : Settings.Environment) :
    Except RunError (Options × Settings × Report) :=
  match Options.parse arguments with
  | .error e => .error (.usage e)
  | .ok o =>
    match Settings.ofEnvironment env with
    | .error e => .error (.settings e)
    | .ok settings =>
      match run settings o with
      | .ok report => .ok (o, effective settings o, report)
      | .error _ => .error .endless

end Admission.Simulation
