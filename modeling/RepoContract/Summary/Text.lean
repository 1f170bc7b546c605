/-
# RepoContract.Summary.Text: the report for people

Failed records come first, then warnings, then, if asked for, those that passed; each with its
violations and an empty line after it. The last line is the tally. Colour is put around the
labels and numbers and changes nothing else.
-/
import RepoContract.Summary.Basic

namespace RepoContract

set_option autoImplicit false

/-- When a report is coloured. -/
inductive ColorChoice where
  | auto
  | always
  | never
  deriving DecidableEq, Repr

/-- Whether to colour, given whether the output is a terminal that wants colour. -/
def ColorChoice.isOn (choice : ColorChoice) (terminal : Bool) : Bool :=
  match choice with
  | .auto => terminal
  | .always => true
  | .never => false

inductive Color where
  | red
  | green
  | yellow
  deriving DecidableEq, Repr

def Color.sequence : Color → String
  | .red => "\x1b[31m"
  | .green => "\x1b[32m"
  | .yellow => "\x1b[33m"

def resetSequence : String := "\x1b[0m"

/-- A text in a colour, if colour is on. -/
def paint (isOn : Bool) (color : Color) (text : String) : String :=
  if isOn then color.sequence ++ text ++ resetSequence else text

/-- How a report shows a record. -/
inductive Status where
  | passed
  | warning
  | failed
  deriving DecidableEq, Repr

namespace Status

def ofRecord (record : Record) : Status :=
  match record.severity, record.violations.isEmpty with
  | _, true => .passed
  | .warn, false => .warning
  | .error, false => .failed

def icon : Status → String
  | .passed => "✓"
  | .warning => "⚠"
  | .failed => "✗"

def label : Status → String
  | .passed => "PASSED"
  | .warning => "WARNING"
  | .failed => "FAILED"

def color : Status → Color
  | .passed => .green
  | .warning => .yellow
  | .failed => .red

end Status

/-- The lines of a record and an empty line. -/
def Record.block (colored : Bool) (record : Record) : String :=
  let status := Status.ofRecord record
  status.icon ++ " " ++ paint colored status.color status.label ++ ": " ++ record.id ++ " ("
    ++ record.name ++ ")\n"
    ++ String.join (record.violations.map fun violation => "   " ++ violation.display ++ "\n")
    ++ "\n"

namespace Summary

/-- The line with the counts. -/
def tally (summary : Summary) (colored : Bool) : String :=
  "Summary: " ++ toString (summary.passed + summary.failed) ++ " rules checked, "
    ++ paint colored .green (toString summary.passed) ++ " passed, "
    ++ paint colored .yellow (toString summary.warnings) ++ " warnings, "
    ++ paint colored .red (toString summary.failed) ++ " failed\n"

/-- The blocks of the records of a status. -/
def blocks (summary : Summary) (colored : Bool) (status : Status) : String :=
  String.join ((summary.records.filter fun record => Status.ofRecord record = status).map
    (·.block colored))

/-- The report; records that passed are shown from verbosity one on. -/
def renderText (summary : Summary) (colored : Bool) (verbosity : Nat) : String :=
  summary.blocks colored .failed ++ summary.blocks colored .warning
    ++ (if verbosity = 0 then "" else summary.blocks colored .passed)
    ++ summary.tally colored

end Summary

end RepoContract
