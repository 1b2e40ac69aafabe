import Admission.LogFilter.Directive

/-!
# Which log lines are shown

A filter is a list of directives, separated by commas. Of the directives that cover a line the
most specific one decides, and of several that are equally specific the last. A line that no
directive covers is not shown.

A directive that cannot be read is left out, with a warning. A filter without directives shows
errors only.
-/

set_option autoImplicit false

namespace Admission

/-- Which log lines are shown. -/
structure LogFilter where
  directives : List Directive
  /-- The parts that could not be read. -/
  warnings : List (String × DirectiveError)

namespace LogFilter

/-- The parts of a text between commas. -/
def splitCommas (s : List Char) : List (List Char) :=
  s.foldr (fun c parts =>
    if c = ',' then [] :: parts
    else
      match parts with
      | [] => [[c]]
      | part :: rest => (c :: part) :: rest) [[]]

/-- The filter that has one threshold for everything under a target. -/
def uniform (target : String) (threshold : Threshold) : LogFilter :=
  ⟨[⟨target.toList, none, none, threshold⟩], []⟩

/-- Reads a filter. -/
def parse (s : String) : LogFilter :=
  let parts := (splitCommas s.toList).filter fun part => !part.isEmpty
  let results := parts.map fun part => (String.ofList part, Directive.read part)
  let directives := results.filterMap fun r =>
    match r.2 with
    | .ok d => some d
    | .error _ => none
  let warnings := results.filterMap fun r =>
    match r.2 with
    | .ok _ => none
    | .error e => some (r.1, e)
  if directives.isEmpty then { uniform "" Severity.error.rank with warnings := warnings }
  else ⟨directives, warnings⟩

/-- The directive that decides about a line. -/
def deciding? (f : LogFilter) (l : LogLine) : Option Directive :=
  (f.directives.filter fun d => d.covers l).foldl (fun best d =>
    match best with
    | none => some d
    | some b => if d.isAsSpecificAs b then some d else some b) none

/-- Is a line shown? -/
def shows (f : LogFilter) (l : LogLine) : Bool :=
  match f.deciding? l with
  | some d => l.severity.rank ≤ d.threshold
  | none => false

end LogFilter

end Admission
