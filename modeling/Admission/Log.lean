import Admission.Json.Value

/-!
# Log lines

A log line has a severity, a target, a message and named fields. The target names the part of the
program that the line comes from; it is not shown, but what is shown may depend on it. The
severities are ordered; a threshold lets through what is at least as severe.
-/

set_option autoImplicit false

namespace Admission

/-- How important a log line is. -/
inductive Severity where
  | error
  | warn
  | info
  | debug
  | trace
deriving DecidableEq, Repr

namespace Severity

/-- The place of a severity, the most severe first. -/
def rank : Severity → Nat
  | error => 1
  | warn => 2
  | info => 3
  | debug => 4
  | trace => 5

def name : Severity → String
  | error => "ERROR"
  | warn => "WARN"
  | info => "INFO"
  | debug => "DEBUG"
  | trace => "TRACE"

end Severity

/-- The value of a field. -/
inductive LogValue where
  | text (s : String)
  | number (n : Nat)
  | flag (b : Bool)
deriving DecidableEq, Repr

namespace LogValue

/-- A value as it stands behind the name of its field. -/
def asText : LogValue → String
  | text s => s
  | number n => toString n
  | flag true => "true"
  | flag false => "false"

def asJson : LogValue → Json.Value
  | text s => .str s
  | number n => .num n
  | flag b => .bool b

end LogValue

/-- A line of the log. -/
structure LogLine where
  severity : Severity
  target : String
  message : String
  /-- The named fields, in order. -/
  fields : List (String × LogValue)
deriving DecidableEq, Repr

/-- The target of the program's own log lines. -/
def programTarget : String := "conntrack_sim"

/-- What the targets of the library's log lines begin with. Where the library is built apart from
the program, that is a name of its own, `conntrack`. Here its modules are built into the program,
and a filter for the program's lines decides about theirs as well. -/
def libraryTarget : String := programTarget

namespace LogLine

/-- The name of the field that holds the message. -/
def messageField : String := "message"

/-- A log line as a list of texts: severity, message, then the fields as `name=value`. -/
def texts (l : LogLine) : List String :=
  l.severity.name :: l.message :: l.fields.map fun field => field.1 ++ "=" ++ field.2.asText

/-- A log line on one line of text. -/
def text (l : LogLine) : String := " ".intercalate l.texts

/-- The names of the fields of a log line, that of the message among them. -/
def fieldNames (l : LogLine) : List String := messageField :: l.fields.map (·.1)

/-- The fields of a log line as a JSON object, the message among them. -/
def fieldsJson (l : LogLine) : Json.Value :=
  .obj ((messageField, .str l.message) :: l.fields.map fun field => (field.1, field.2.asJson))

/-- A log line as a JSON object. -/
def json (l : LogLine) : Json.Value :=
  .obj [("level", .str l.severity.name), ("fields", l.fieldsJson)]

end LogLine

end Admission
