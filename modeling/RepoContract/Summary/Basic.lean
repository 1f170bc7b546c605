/-
# RepoContract.Summary.Basic: the tally of a run

A record of severity error passes when it is clean and fails when it is not; a record of severity
warn counts as a warning when it is not clean. A run succeeds when no record fails.
-/
import RepoContract.Record

namespace RepoContract

set_option autoImplicit false

structure Summary where
  passed : Nat
  failed : Nat
  warnings : Nat
  records : List Record
  deriving DecidableEq, Repr

namespace Summary

/-- Count one more record. -/
def count (summary : Summary) (record : Record) : Summary :=
  match record.severity, record.isClean with
  | .error, true => { summary with passed := summary.passed + 1 }
  | .error, false => { summary with failed := summary.failed + 1 }
  | .warn, false => { summary with warnings := summary.warnings + 1 }
  | .warn, true => summary

/-- The tally of some records. -/
def ofRecords (records : List Record) : Summary :=
  records.foldl count ⟨0, 0, 0, records⟩

def isSuccess (summary : Summary) : Bool :=
  summary.failed == 0

/-- The exit code of a run: zero for success, one for violations. -/
def exitCode (summary : Summary) : Nat :=
  if summary.isSuccess then 0 else 1

end Summary

end RepoContract
