/-
# RepoContract.CommandLine.Run: running an invocation

An invocation run in a world yields an exit code, the two outputs, and the world after it. The
exit code is zero for success, one for violations, and two when the run itself fails.
-/
import RepoContract.CommandLine.Arguments
import RepoContract.Rule.BuiltIn
import RepoContract.Run
import RepoContract.Starter
import RepoContract.Summary.Document
import RepoContract.Summary.Text

namespace RepoContract.CommandLine

set_option autoImplicit false

structure Result where
  exitCode : Nat
  output : String
  errors : String
  world : World

/-- The notice about fixes. -/
def fixNotice : String := "--fix is not implemented yet; no files were modified"

def failureCode : Nat := 2

/-- The line about a fault. -/
def faultLine (fault : Fault) : String :=
  "Error: " ++ fault.brief ++ "\n"

/-- The report of a summary. -/
def report (format : Format) (colored : Bool) (verbosity : Nat) (summary : Summary) :
    Except Fault String :=
  match format with
  | .text => .ok (summary.renderText colored verbosity)
  | .json => summary.renderDocument

/-- Validate a project and report; a root that is not there is reported as a contract that is not
there. `terminal` tells whether the output is a terminal that wants colour. -/
def runValidate (world : World) (terminal : Bool) (invocation : Invocation)
    (arguments : ValidateArguments) : Result :=
  let root := (world.canonical arguments.path).toOption.getD arguments.path
  let summary := world.validate root arguments.excludes .builtIn
  let notice := if arguments.fix then fixNotice ++ "\n" else ""
  match report arguments.format (invocation.color.isOn terminal) invocation.verbosity summary with
  | .ok text => ⟨summary.exitCode, if invocation.quiet then "" else text, notice, world⟩
  | .error fault => ⟨failureCode, "", notice ++ faultLine fault, world⟩

/-- Write the files of a new project. -/
def runInit (world : World) (invocation : Invocation) (arguments : InitArguments) : Result :=
  let starter := Starter.ofLanguages arguments.languages (arguments.mode.getD .strict)
  match starter.write world arguments.path arguments.force with
  | (world, .ok written) =>
    let lines := String.join (written.map fun path => "Created " ++ path.display ++ "\n")
    ⟨0, if invocation.quiet then "" else lines, "", world⟩
  | (world, .error fault) => ⟨failureCode, "", faultLine fault, world⟩

/-- Run an invocation. -/
def run (world : World) (terminal : Bool) (invocation : Invocation) : Result :=
  match invocation.command with
  | .validate arguments => runValidate world terminal invocation arguments
  | .init arguments => runInit world invocation arguments

end RepoContract.CommandLine
