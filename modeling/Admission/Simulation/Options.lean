import Admission.Capacity
import Admission.Span

/-!
# The options of the simulator

The arguments of the simulator are flags, most of which take the next argument as their value,
whatever it looks like. A flag that comes twice counts the last time. The first argument that is
wrong ends the reading, and what follows it has no influence; asking for help counts as such an
argument, without a message.
-/

set_option autoImplicit false

namespace Admission.Simulation

/-- The options of a simulation. -/
structure Options where
  /-- The number of flows. -/
  flows : Nat
  /-- The number of distinct entries that the flows share, if it is given. -/
  distinct : Option Nat
  /-- A capacity in place of the configured one. -/
  capacity : Option Capacity
  /-- A linger in place of the configured one. -/
  linger : Option Span
  /-- How long each flow keeps its slot. -/
  hold : Span
  /-- How long a flow waits before it gives up. -/
  deadline : Option Span
  /-- The number of priority classes. -/
  priorities : Nat
  /-- Is a status shown as JSON? -/
  json : Bool
deriving DecidableEq

/-- The options when there is no argument. -/
def Options.standard : Options :=
  { flows := 64, distinct := none, capacity := none, linger := none, hold := .ofMillis 10,
    deadline := none, priorities := 2, json := false }

/-- The greatest number of distinct entries: the addresses are drawn from a block of this size. -/
def maxDistinct : Nat := Nat.pow 2 24

/-- The greatest number of priority classes. -/
def maxPriorities : Nat := 1024

/-- A flag that takes a value. -/
inductive Flag where
  | flows
  | distinct
  | maxEntries
  | timeout
  | hold
  | deadline
  | priorities
deriving DecidableEq, Repr

namespace Flag

def text : Flag → String
  | flows => "--flows"
  | distinct => "--distinct"
  | maxEntries => "--max-entries"
  | timeout => "--timeout-ms"
  | hold => "--hold-ms"
  | deadline => "--deadline-ms"
  | priorities => "--priorities"

/-- All flags that take a value. -/
def all : List Flag := [flows, distinct, maxEntries, timeout, hold, deadline, priorities]

/-- The flag with a given text. -/
def ofText? (s : String) : Option Flag := all.find? fun f => f.text = s

theorem ofText?_text (f : Flag) : ofText? f.text = some f := by cases f <;> decide

end Flag

/-- The flag that takes no value. -/
def jsonFlag : String := "--json"

/-- Is the argument a request for help? -/
def isHelp (s : String) : Bool := s = "--help" || s = "-h"

/-- What is wrong with the arguments. -/
inductive UsageError where
  /-- Help was asked for. -/
  | help
  | unknown (argument : String)
  | missingValue (flag : Flag)
  | notANumber (flag : Flag) (value : String)
  | notACapacity (value : String)
  | distinctOutOfRange
  | prioritiesOutOfRange
deriving DecidableEq, Repr

/-- The message of an error; there is none when help was asked for. -/
def UsageError.message : UsageError → String
  | help => ""
  | unknown argument => "unknown argument: " ++ argument
  | missingValue flag => flag.text ++ " requires a value"
  | notANumber flag value =>
    flag.text ++ " expects a non-negative integer, got '" ++ value ++ "'"
  | notACapacity value => "--max-entries expects an integer or 'unlimited', got '" ++ value ++ "'"
  | distinctOutOfRange => "--distinct must be between 1 and " ++ toString maxDistinct
  | prioritiesOutOfRange => "--priorities must be between 1 and " ++ toString maxPriorities

namespace Options

/-- Reads a number of 64 bits as the value of a flag. -/
def readNumber (flag : Flag) (value : String) : Except UsageError Nat :=
  match Decimal.readWord? value.toList with
  | some n => .ok n.toNat
  | none => .error (.notANumber flag value)

/-- Reads a length of time in milliseconds as the value of a flag. -/
def readMillis (flag : Flag) (value : String) : Except UsageError Span :=
  match readNumber flag value with
  | .ok n => .ok (.ofMillis n)
  | .error e => .error e

/-- Reads a number between 1 and a bound as the value of a flag. -/
def readBetween (flag : Flag) (bound : Nat) (outOfRange : UsageError) (value : String) :
    Except UsageError Nat :=
  match readNumber flag value with
  | .ok n => if n = 0 || bound < n then .error outOfRange else .ok n
  | .error e => .error e

/-- Sets the option of a flag. -/
def set (o : Options) (flag : Flag) (value : String) : Except UsageError Options :=
  match flag with
  | .flows => (readNumber flag value).map fun n => { o with flows := n }
  | .distinct =>
    (readBetween flag maxDistinct .distinctOutOfRange value).map fun n =>
      { o with distinct := some n }
  | .maxEntries =>
    match Capacity.parse? value with
    | some c => .ok { o with capacity := some c }
    | none => .error (.notACapacity value)
  | .timeout => (readMillis flag value).map fun d => { o with linger := some d }
  | .hold => (readMillis flag value).map fun d => { o with hold := d }
  | .deadline => (readMillis flag value).map fun d => { o with deadline := some d }
  | .priorities =>
    (readBetween flag maxPriorities .prioritiesOutOfRange value).map fun n =>
      { o with priorities := n }

/-- The error of an argument that is no flag. -/
def strayArgument (s : String) : UsageError := if isHelp s then .help else .unknown s

/-- Reads arguments on top of options already set. -/
def parseFrom (o : Options) : List String → Except UsageError Options
  | [] => .ok o
  | argument :: rest =>
    if argument = jsonFlag then parseFrom { o with json := true } rest
    else
      match Flag.ofText? argument, rest with
      | none, _ => .error (strayArgument argument)
      | some flag, [] => .error (.missingValue flag)
      | some flag, value :: rest =>
        match o.set flag value with
        | .ok o => parseFrom o rest
        | .error e => .error e

/-- Reads the arguments of the simulator. -/
def parse (arguments : List String) : Except UsageError Options := parseFrom standard arguments

/-- The number of distinct entries in force: as many as there are flows, if nothing was given. -/
def distinctCount (o : Options) : Nat := o.distinct.getD (max 1 (min o.flows maxDistinct))

end Options

/-- The lines of the text that explains the options. -/
def usageLines : List String := [
  "Usage: conntrack-sim [options]",
  "",
  "Options:",
  "  --flows <n>               Number of simulated flows [default: 64]",
  "  --distinct <n>            Distinct entries shared by the flows, at most 16777216 [default: flows]",
  "  --max-entries <n|unlimited>  Slot ceiling [default: CONNTRACK_MAX_ENTRIES or 16384]",
  "  --timeout-ms <ms>         Linger after release [default: CONNTRACK_TIMEOUT or 30s]",
  "  --hold-ms <ms>            How long each flow keeps its slot [default: 10]",
  "  --deadline-ms <ms>        Give up waiting after this long [default: never]",
  "  --priorities <n>          Number of priority classes [default: 2]",
  "  --json                    Print status snapshots as JSON"]

/-- The text that explains the options. -/
def usage : String := String.join (usageLines.map (· ++ "\n"))

end Admission.Simulation
