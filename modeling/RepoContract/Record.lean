/-
# RepoContract.Record: violations and the records that hold them

A violation is a finding, with the file and the line it is about where there is one. A record
holds what one rule found, in order.
-/
import RepoContract.Path

namespace RepoContract

set_option autoImplicit false

inductive Severity where
  /-- Counts for and against success. -/
  | error
  /-- Reported, and never a failure. -/
  | warn
  deriving DecidableEq, Repr

def Severity.text : Severity → String
  | .error => "error"
  | .warn => "warn"

structure Violation where
  file : Option Path := none
  /-- Counted from one. -/
  line : Option Nat := none
  message : String
  deriving DecidableEq, Repr

namespace Violation

/-- A violation of the project as a whole. -/
def general (message : String) : Violation :=
  { message }

def inFile (file : Path) (message : String) : Violation :=
  { file := some file, message }

def atLine (file : Path) (line : Nat) (message : String) : Violation :=
  { file := some file, line := some line, message }

/-- The violation in one line of text; a line number without a file is not shown. -/
def display (violation : Violation) : String :=
  match violation.file, violation.line with
  | some file, some line => file.display ++ ":" ++ toString line ++ ": " ++ violation.message
  | some file, none => file.display ++ ": " ++ violation.message
  | none, _ => violation.message

end Violation

structure Record where
  id : String
  name : String
  severity : Severity
  violations : List Violation
  deriving DecidableEq, Repr

/-- Whether a record holds no violation. -/
def Record.isClean (record : Record) : Bool :=
  record.violations.isEmpty

end RepoContract
