import Admission.LogFilter
import Admission.Simulation.Run

/-!
# The command line of the simulator

What the program does with its arguments and its environment: it reads the arguments, reads the
configuration, runs the simulation and prints two statuses. Wrong arguments end it with exit code 2
and the text that explains the options, a wrong configuration with exit code 1.

The log goes to the error output. Which lines are shown is said by a filter in one variable, or by
a word in another one; a third variable chooses between plain lines and JSON.
-/

set_option autoImplicit false

namespace Admission

namespace CommandLine

open Simulation

/-- The variable with a filter for the log. -/
def filterVariable : String := "RUST_LOG"

/-- The variable with a severity for the log, which counts if there is no filter. -/
def severityVariable : String := "CONNTRACK_LOG"

/-- The variable with the format of the log. -/
def formatVariable : String := "LOG_FORMAT"

/-- The beginning that all targets of log lines share. -/
def commonTarget : String := "conntrack"

/-- The severity that a word names. Any other word, and no word, mean the usual one. -/
def severityOfWord (word : Option String) : Severity :=
  match word with
  | some "trace" => .trace
  | some "debug" => .debug
  | some "warn" => .warn
  | some "warning" => .warn
  | some "error" => .error
  | _ => .info

/-- The filter for the log under an environment. -/
def logFilter (env : Settings.Environment) : LogFilter :=
  match Settings.textOf env filterVariable with
  | some text => LogFilter.parse text
  | none =>
    .uniform commonTarget (severityOfWord (Settings.textOf env severityVariable)).rank

/-- Is the log written as JSON? -/
def isJsonLog (env : Settings.Environment) : Bool :=
  Settings.textOf env formatVariable = some "json"

/-- The log line with which a simulation begins. -/
def startLine (settings : Settings) (o : Options) : LogLine :=
  ⟨.info, programTarget, "Starting simulation",
    [("capacity", .text settings.capacity.debug), ("linger", .text settings.linger.text),
      ("flows", .number o.flows)]⟩

/-- The log line with which a simulation ends. -/
def endLine (r : Report) : LogLine :=
  ⟨.info, programTarget, "Simulation complete",
    [("admitted", .number r.admitted), ("cancelled", .number r.cancelled)]⟩

/-- The log of a simulation, as far as a filter shows it. -/
def logLines (f : LogFilter) (settings : Settings) (o : Options) (r : Report) : List LogLine :=
  (startLine settings o :: r.events.map Event.record ++ [endLine r]).filter f.shows

/-- The lines that say which parts of a filter were left out. -/
def warningLines (f : LogFilter) : List String :=
  f.warnings.map fun w => "ignoring \x60" ++ w.1 ++ "\x60: " ++ w.2.message

/-- What the program does. -/
inductive Outcome where
  /-- It explains its options. -/
  | explained (e : UsageError)
  /-- It fails. -/
  | failed (warnings : List String) (e : RunError)
  /-- It runs a simulation. -/
  | ran (warnings : List String) (log : List LogLine) (json : Bool) (report : Report)

/-- What the program does with its arguments in an environment. -/
def run (arguments : List String) (env : Settings.Environment) : Outcome :=
  let filter := logFilter env
  match runArguments arguments env with
  | .error (.usage e) => .explained e
  | .error e => .failed (warningLines filter) e
  | .ok (o, settings, report) =>
    .ran (warningLines filter) (logLines filter settings o report) o.json report

namespace Outcome

/-- The exit code of the program. -/
def exitCode : Outcome → UInt32
  | explained _ => 2
  | failed _ _ => 1
  | ran _ _ _ _ => 0

/-- What the program prints before the time that it took, which is the last thing it prints. -/
def outputBeforeTime : Outcome → String
  | explained _ => ""
  | failed _ _ => ""
  | ran _ _ json report => report.outputBeforeTime json

/-- What the program prints. -/
def output : Outcome → String
  | explained _ => ""
  | failed _ _ => ""
  | ran _ _ json report => report.output json

/-- Lines of text, each ended by a line break. -/
def ofLines (lines : List String) : String := String.join (lines.map (· ++ "\n"))

/-- The error output of the program, apart from the log. -/
def errorOutput : Outcome → String
  | explained e =>
    (if e.message.isEmpty then "" else "error: " ++ e.message ++ "\n\n") ++ usage
  | failed warnings e => ofLines (warnings ++ ["error: " ++ e.message])
  | ran warnings _ _ _ => ofLines warnings

/-- The log of the program. -/
def log : Outcome → List LogLine
  | ran _ log _ _ => log
  | _ => []

/-- The number of lines that the program writes to the error output. A log line is one line, but a
warning quotes a part of a filter, and with it the line breaks in that part. -/
def errorLineCount (o : Outcome) : Nat := o.errorOutput.toList.count '\n' + o.log.length

end Outcome

end CommandLine

end Admission
