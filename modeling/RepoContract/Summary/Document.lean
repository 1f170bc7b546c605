/-
# RepoContract.Summary.Document: the report as a document

The document holds the counts and every record with its violations; a file or line that a
violation does not have is left out. A path that is not text cannot be written.
-/
import RepoContract.Fault
import RepoContract.Json.Output
import RepoContract.Summary.Basic

namespace RepoContract

set_option autoImplicit false

open Json (Output)

/-- The member for a file; none for a path that is not text. -/
def Violation.fileMember? : Option Path → Option (List (String × Output))
  | none => some []
  | some path => path.text?.map fun text => [("file", .text text)]

def Violation.lineMember : Option Nat → List (String × Output)
  | none => []
  | some line => [("line", .count line)]

def Violation.toOutput? (violation : Violation) : Option Output :=
  (Violation.fileMember? violation.file).map fun file =>
    .record (file ++ Violation.lineMember violation.line ++ [("message", .text violation.message)])

def Record.toOutput? (record : Record) : Option Output :=
  (record.violations.mapM Violation.toOutput?).map fun violations =>
    .record [("id", .text record.id), ("name", .text record.name),
      ("severity", .text record.severity.text), ("violations", .list violations)]

namespace Summary

/-- The document of a summary, if every path in it is text. -/
def toOutput? (summary : Summary) : Option Output :=
  (summary.records.mapM Record.toOutput?).map fun records =>
    .record [
      ("summary", .record [("passed", .count summary.passed), ("failed", .count summary.failed),
        ("warnings", .count summary.warnings)]),
      ("results", .list records)]

/-- The text of the document. -/
def renderDocument (summary : Summary) : Except Fault String :=
  match summary.toOutput? with
  | some output => .ok output.render
  | none => .error (.document .pathNotText)

end Summary

end RepoContract
