/-
# RepoContract.Proofs.Summary.Tally: every record is counted once

Records are of four kinds, by severity and by whether they are clean. A summary counts three of
them; a clean record of severity warn is the one kind that no number shows.
-/
import RepoContract.Summary.Basic

namespace RepoContract

set_option autoImplicit false

/-- How many records are of a kind. -/
def countOf (severity : Severity) (clean : Bool) (records : List Record) : Nat :=
  records.countP fun record => record.severity = severity && record.isClean = clean

theorem countOf_nil (severity : Severity) (clean : Bool) : countOf severity clean [] = 0 :=
  rfl

theorem countOf_cons (severity : Severity) (clean : Bool) (record : Record)
    (records : List Record) :
    countOf severity clean (record :: records) = countOf severity clean records +
      if record.severity = severity ∧ record.isClean = clean then 1 else 0 := by
  simp [countOf, List.countP_cons]

theorem countOf_append (severity : Severity) (clean : Bool) (first second : List Record) :
    countOf severity clean (first ++ second) =
      countOf severity clean first + countOf severity clean second :=
  List.countP_append

/-- Some record is of a kind that is counted. -/
theorem countOf_pos_iff {severity : Severity} {clean : Bool} {records : List Record} :
    0 < countOf severity clean records ↔
      ∃ record ∈ records, record.severity = severity ∧ record.isClean = clean := by
  simp [countOf, List.countP_pos_iff]

/-- The four kinds make up all records. -/
theorem countOf_kinds (records : List Record) :
    countOf .error true records + countOf .error false records + countOf .warn false records +
      countOf .warn true records = records.length := by
  induction records with
  | nil => rfl
  | cons record rest ih =>
      simp only [countOf_cons, List.length_cons]
      rcases record with ⟨id, name, severity, violations⟩
      cases severity <;> cases clean : Record.isClean ⟨id, name, _, violations⟩ <;> simp <;> omega

namespace Summary

theorem foldl_count (records kept : List Record) (passed failed warnings : Nat) :
    records.foldl count ⟨passed, failed, warnings, kept⟩ =
      ⟨passed + countOf .error true records, failed + countOf .error false records,
        warnings + countOf .warn false records, kept⟩ := by
  induction records generalizing passed failed warnings with
  | nil => rfl
  | cons record rest ih =>
      rcases record with ⟨id, name, severity, violations⟩
      simp only [List.foldl_cons, countOf_cons]
      cases severity <;> cases clean : Record.isClean ⟨id, name, _, violations⟩ <;>
        simp [count, clean, ih] <;> omega

theorem ofRecords_eq (records : List Record) :
    ofRecords records =
      ⟨countOf .error true records, countOf .error false records, countOf .warn false records,
        records⟩ := by
  simp [ofRecords, foldl_count]

/-- The counts of a summary are those of its records, each of which is counted once, and its
exit code tells whether one of them failed. -/
structure Tallied (summary : Summary) : Prop where
  passed : summary.passed = countOf .error true summary.records
  failed : summary.failed = countOf .error false summary.records
  warnings : summary.warnings = countOf .warn false summary.records
  complete : summary.passed + summary.failed + summary.warnings +
    countOf .warn true summary.records = summary.records.length
  success : summary.exitCode = 0 ↔ ∀ record ∈ summary.records,
    record.severity = .error → record.violations = []
  failure : summary.exitCode = 1 ↔ ∃ record ∈ summary.records,
    record.severity = .error ∧ record.violations ≠ []

theorem exitCode_eq_one_iff (summary : Summary) : summary.exitCode = 1 ↔ 0 < summary.failed := by
  simp [exitCode, isSuccess, Nat.pos_iff_ne_zero]

theorem exitCode_eq_zero_iff (summary : Summary) : summary.exitCode = 0 ↔ ¬ 0 < summary.failed := by
  simp [exitCode, isSuccess]

/-- **The summary of some records is tallied.** -/
theorem ofRecords_tallied (records : List Record) : (ofRecords records).Tallied := by
  have anyFails : 0 < (ofRecords records).failed ↔
      ∃ record ∈ records, record.severity = .error ∧ record.violations ≠ [] := by
    rw [ofRecords_eq, countOf_pos_iff]
    simp [Record.isClean]
  have kinds := countOf_kinds records
  rw [ofRecords_eq] at anyFails ⊢
  refine ⟨rfl, rfl, rfl, kinds, ?_, ?_⟩
  · rw [exitCode_eq_zero_iff, anyFails]
    simp only [not_exists, not_and, Decidable.not_not]
  · rw [exitCode_eq_one_iff, anyFails]

end Summary

end RepoContract
