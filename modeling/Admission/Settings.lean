import Admission.Capacity
import Admission.Decimal.Seconds

/-!
# Settings

The two settings of a controller, its capacity and its linger, have defaults that the environment
may override. A variable that is not set, or whose bytes are not text, keeps the default; one that
is set but cannot be read is an error, and the error shows the value as it was given.
-/

set_option autoImplicit false

namespace Admission

/-- The settings of a controller. -/
structure Settings where
  capacity : Capacity
  /-- The linger of released entries, unless a policy is set. -/
  linger : Span
deriving DecidableEq

/-- A variable whose value cannot be read. -/
inductive SettingsError where
  | capacity (value : String)
  | linger (value : String)
deriving DecidableEq

namespace Settings

/-- The variable with the capacity. -/
def capacityVariable : String := "CONNTRACK_MAX_ENTRIES"

/-- The variable with the linger, in seconds. -/
def lingerVariable : String := "CONNTRACK_TIMEOUT"

/-- The settings in force when no variable is set. -/
def standard : Settings := ⟨.standard, .ofWholeSeconds 30⟩

/-- The capacity from the value of its variable. -/
def readCapacity (value : Option String) : Except SettingsError Capacity :=
  match value with
  | none => .ok standard.capacity
  | some text =>
    match Capacity.parse? text with
    | some capacity => .ok capacity
    | none => .error (.capacity text)

/-- The linger from the value of its variable. -/
def readLinger (value : Option String) : Except SettingsError Span :=
  match value with
  | none => .ok standard.linger
  | some text =>
    match Decimal.parseSeconds? text with
    | some linger => .ok linger
    | none => .error (.linger text)

/-- The settings under given variables. The capacity is read first, so its error comes first. -/
def ofLookup (lookup : String → Option String) : Except SettingsError Settings :=
  match readCapacity (lookup capacityVariable) with
  | .error e => .error e
  | .ok capacity =>
    match readLinger (lookup lingerVariable) with
    | .error e => .error e
    | .ok linger => .ok ⟨capacity, linger⟩

/-- A process environment: the bytes of each variable that is set. -/
abbrev Environment := String → Option ByteArray

/-- The text of a variable. Bytes that are not UTF-8 count as not set. -/
def textOf (env : Environment) (name : String) : Option String :=
  (env name).bind String.fromUTF8?

/-- The settings under a process environment. -/
def ofEnvironment (env : Environment) : Except SettingsError Settings := ofLookup (textOf env)

/-- The form in which diagnostics show settings. -/
def debug (s : Settings) : String :=
  "ConntrackConfig \x7b capacity: " ++ s.capacity.debug ++ ", default_timeout: " ++
    s.linger.text ++ " \x7d"

end Settings

namespace SettingsError

/-- The message of an error. -/
def message : SettingsError → String
  | capacity value =>
    "invalid " ++ Settings.capacityVariable ++
      ": expected a non-negative integer or 'unlimited', got '" ++ value ++ "'"
  | linger value =>
    "invalid " ++ Settings.lingerVariable ++
      ": expected a non-negative number of seconds, got '" ++ value ++ "'"

end SettingsError

end Admission
