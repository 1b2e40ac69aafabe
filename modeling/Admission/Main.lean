import Admission.CommandLine

/-!
# The simulator as a program

Reads the arguments and the variables that matter, runs the simulation in virtual time, and prints
what `CommandLine.run` decided.
-/

set_option autoImplicit false

namespace Admission

/-- The variables that the program looks at. -/
def relevantVariables : List String :=
  [Settings.capacityVariable, Settings.lingerVariable, CommandLine.filterVariable,
    CommandLine.severityVariable, CommandLine.formatVariable]

/-- The values of the variables that the program looks at. -/
def readEnvironment : IO Settings.Environment := do
  let mut values : List (String × ByteArray) := []
  for name in relevantVariables do
    if let some value ← IO.getEnv name then values := (name, value.toUTF8) :: values
  return fun name => values.lookup name

end Admission

open Admission in
def main (arguments : List String) : IO UInt32 := do
  let env ← readEnvironment
  let outcome := CommandLine.run arguments env
  let isJson := CommandLine.isJsonLog env
  IO.eprint outcome.errorOutput
  for line in outcome.log do
    IO.eprintln (if isJson then line.json.compact else line.text)
  IO.print outcome.output
  return outcome.exitCode
