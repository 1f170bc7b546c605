/-
# RepoContract.Proofs.Run.Quiet: runs on which nothing is found

A rule is quiet when its check completes and finds nothing (`Rule.IsQuiet`); the rule on the README
may still warn that this is too long. A quiet rule yields its own record, and that is clean, and the
further one for the warning. As ids differ, the summary of quiet rules has one record for each of
them (`Summary.allClear_of_isQuiet`).
-/
import Mathlib.Data.List.Nodup
import Mathlib.Tactic.SplitIfs
import RepoContract.Proofs.Summary.Tally
import RepoContract.Rule.Documents
import RepoContract.Run

namespace RepoContract

set_option autoImplicit false

namespace Rule

variable {rule : Rule} {project : Project} {words : Nat} {record : Record}

/-- What there is to say about the number of words of a README. -/
def lengthWarnings (words : Nat) : List Violation :=
  if readmeWordLimit < words then
    [.inFile (Path.ofString readmeFile)
      s!"{readmeFile} has {words} words; keep it to {readmeWordLimit} or fewer"]
  else []

/-- The rule finds nothing in a project with a README of so many words, but may warn of these. -/
def IsQuiet (project : Project) (words : Nat) (rule : Rule) : Prop :=
  rule.check project =
    .completed ⟨[], if rule.id = "agent-readme" then lengthWarnings words else []⟩

/-- The record of a rule that found nothing. -/
def clearRecord (rule : Rule) : Record :=
  ⟨rule.id, rule.name, rule.severity, []⟩

/-- The further record of a rule on a README of so many words. -/
def lengthRecords (words : Nat) (rule : Rule) : List Record :=
  if readmeWordLimit < words then
    [⟨"agent-readme-warnings", rule.name ++ " (warnings)", .warn, lengthWarnings words⟩]
  else []

theorem of_mem_lengthRecords (isRecord : record ∈ rule.lengthRecords words) :
    record.id = "agent-readme-warnings" ∧ record.severity = .warn ∧ record.isClean = false := by
  rw [lengthRecords, lengthWarnings] at isRecord
  split_ifs at isRecord
  · rw [List.mem_singleton.1 isRecord]
    exact ⟨rfl, rfl, rfl⟩
  · contradiction

theorem IsQuiet.records_eq (quiet : rule.IsQuiet project words) :
    (rule.execute project).records =
      rule.clearRecord :: if rule.id = "agent-readme" then rule.lengthRecords words else [] := by
  rw [execute, quiet]
  by_cases isReadme : rule.id = "agent-readme"
  · by_cases isLong : readmeWordLimit < words <;>
      simp [Execution.records, recordsOf, clearRecord, lengthRecords, lengthWarnings, isReadme,
        isLong]
  · simp [Execution.records, recordsOf, clearRecord, isReadme]

/-- A record of a quiet rule is its own, and clean, or the further one, and a warning. -/
theorem IsQuiet.of_mem_records (quiet : rule.IsQuiet project words)
    (isRecord : record ∈ (rule.execute project).records) :
    record = rule.clearRecord ∨
      record.id = "agent-readme-warnings" ∧ record.severity = .warn ∧ record.isClean = false := by
  rw [quiet.records_eq] at isRecord
  refine (List.mem_cons.1 isRecord).imp_right fun isFurther => ?_
  split at isFurther
  · exact of_mem_lengthRecords isFurther
  · contradiction

/-- Among the records of a quiet rule, that of an id is its own, if it has that id. -/
theorem IsQuiet.filter_records (quiet : rule.IsQuiet project words) {id : String}
    (isOther : id ≠ "agent-readme-warnings") :
    (rule.execute project).records.filter (·.id = id) =
      if rule.id = id then [rule.clearRecord] else [] := by
  have none : (if rule.id = "agent-readme" then rule.lengthRecords words else []).filter
      (·.id = id) = [] := by
    rw [List.filter_eq_nil_iff]
    intro record isRecord
    split at isRecord
    · simp [(of_mem_lengthRecords isRecord).1, isOther.symm]
    · contradiction
  rw [quiet.records_eq, List.filter_cons, none]
  by_cases same : rule.id = id <;> simp [clearRecord, same]

/-- Among the records of a quiet rule, the further ones are there if it looks at the README. -/
theorem IsQuiet.filter_further (quiet : rule.IsQuiet project words)
    (isOther : rule.id ≠ "agent-readme-warnings") :
    (rule.execute project).records.filter (·.id = "agent-readme-warnings") =
      if rule.id = "agent-readme" then rule.lengthRecords words else [] := by
  rw [quiet.records_eq, List.filter_cons_of_neg (by simp [clearRecord, isOther]),
    List.filter_eq_self]
  intro record isRecord
  split at isRecord
  · simp [(of_mem_lengthRecords isRecord).1]
  · contradiction

end Rule

/-- Where keys differ, the share of a key is that of the item which has it. -/
theorem flatMap_of_key {α β : Type} {key : α → String} {items : List α} {item : α}
    (distinct : (items.map key).Nodup) (isItem : item ∈ items) (share : α → List β) :
    (items.flatMap fun other => if key other = key item then share other else []) =
      share item := by
  induction items with
  | nil => contradiction
  | cons first rest ih =>
      rw [List.map_cons, List.nodup_cons] at distinct
      obtain ⟨notBehind, restDistinct⟩ := distinct
      rw [List.flatMap_cons]
      rcases List.mem_cons.1 isItem with rfl | isRest
      · have none : (rest.flatMap fun other => if key other = key item then share other else []) =
            [] := by
          rw [List.flatMap_eq_nil_iff]
          intro other isOther
          exact if_neg fun (same : key other = key item) =>
            notBehind (same ▸ List.mem_map_of_mem isOther)
        rw [if_pos rfl, none, List.append_nil]
      · have differs : key first ≠ key item := fun same =>
          notBehind (same ▸ List.mem_map_of_mem isRest)
        rw [if_neg differs, List.nil_append, ih restDistinct isRest]

section QuietRules

variable {rules : List Rule} {project : Project} {words : Nat} {record : Record}

/-- A record of quiet rules is that of one of them, and clean, or a further one. -/
theorem of_mem_quietRecords (quiet : ∀ rule ∈ rules, rule.IsQuiet project words)
    (isRecord : record ∈ rules.flatMap fun rule => (rule.execute project).records) :
    (∃ rule ∈ rules, record = rule.clearRecord) ∨
      record.id = "agent-readme-warnings" ∧ record.severity = .warn ∧ record.isClean = false := by
  obtain ⟨rule, isRule, isShare⟩ := List.mem_flatMap.1 isRecord
  exact ((quiet rule isRule).of_mem_records isShare).imp_left fun isClear =>
    ⟨rule, isRule, isClear⟩

theorem id_ne_further {rule : Rule} (noOther : "agent-readme-warnings" ∉ rules.map (·.id))
    (isRule : rule ∈ rules) : rule.id ≠ "agent-readme-warnings" :=
  fun same => noOther (same ▸ List.mem_map_of_mem isRule)

/-- Quiet rules have one further record if the README is too long, and else none. -/
theorem countP_further (distinct : (rules.map (·.id)).Nodup)
    (isThere : "agent-readme" ∈ rules.map (·.id))
    (noOther : "agent-readme-warnings" ∉ rules.map (·.id))
    (quiet : ∀ rule ∈ rules, rule.IsQuiet project words) :
    (rules.flatMap fun rule => (rule.execute project).records).countP
      (·.id = "agent-readme-warnings") = if Rule.readmeWordLimit < words then 1 else 0 := by
  obtain ⟨readme, isReadme, named⟩ := List.mem_map.1 isThere
  have further (rule : Rule) (isRule : rule ∈ rules) :=
    (quiet rule isRule).filter_further (id_ne_further noOther isRule)
  rw [List.countP_eq_length_filter, List.filter_flatMap, List.flatMap_congr further, ← named,
    flatMap_of_key distinct isReadme, Rule.lengthRecords]
  split <;> rfl

end QuietRules

namespace Summary

/-- A run of some rules on which nothing failed: each rule has one record, and that is clean. One
more record is there if the README is too long. -/
structure AllClear (summary : Summary) (rules : List Rule) (isLong : Prop) [Decidable isLong] :
    Prop where
  failed : summary.failed = 0
  exitCode : summary.exitCode = 0
  once : ∀ rule ∈ rules, summary.records.filter (·.id = rule.id) =
    [⟨rule.id, rule.name, rule.severity, []⟩]
  further : ∀ record ∈ summary.records,
    (∃ rule ∈ rules, record.id = rule.id) ∨ record.id = "agent-readme-warnings"
  warned : summary.records.countP (·.id = "agent-readme-warnings") = if isLong then 1 else 0
  warnings : summary.warnings = if isLong then 1 else 0

/-- **The summary of quiet rules is clear**, but for the warnings of the one on the README. -/
theorem allClear_of_isQuiet {rules : List Rule} {project : Project} {words : Nat}
    (distinct : (rules.map (·.id)).Nodup) (isThere : "agent-readme" ∈ rules.map (·.id))
    (noOther : "agent-readme-warnings" ∉ rules.map (·.id))
    (quiet : ∀ rule ∈ rules, rule.IsQuiet project words) :
    (ofRecords (rules.flatMap fun rule => (rule.execute project).records)).AllClear rules
      (Rule.readmeWordLimit < words) := by
  have warned := countP_further distinct isThere noOther quiet
  rw [ofRecords_eq]
  have failed :
      countOf .error false (rules.flatMap fun rule => (rule.execute project).records) = 0 := by
    rw [countOf, List.countP_eq_zero]
    intro record isRecord
    rcases of_mem_quietRecords quiet isRecord with ⟨rule, -, rfl⟩ | ⟨-, isWarning, -⟩
    · simp [Rule.clearRecord, Record.isClean]
    · simp [isWarning]
  constructor
  case failed => exact failed
  case exitCode => rw [exitCode, isSuccess, failed]; rfl
  case once =>
    intro rule isRule
    have own (other : Rule) (isOtherRule : other ∈ rules) :=
      (quiet other isOtherRule).filter_records (id_ne_further noOther isRule)
    rw [List.filter_flatMap, List.flatMap_congr own]
    exact flatMap_of_key distinct isRule _
  case further =>
    intro record isRecord
    rcases of_mem_quietRecords quiet isRecord with ⟨rule, isRule, rfl⟩ | ⟨isFurther, -⟩
    · exact .inl ⟨rule, isRule, rfl⟩
    · exact .inr isFurther
  case warned => exact warned
  case warnings =>
    -- the warnings that are not clean are the further records
    rw [← warned]
    refine List.countP_congr fun record isRecord => ?_
    rcases of_mem_quietRecords quiet isRecord with
      ⟨rule, isRule, rfl⟩ | ⟨isFurther, isWarning, notClean⟩
    · simp [Rule.clearRecord, Record.isClean, id_ne_further noOther isRule]
    · simp [isFurther, isWarning, notClean]

end Summary

end RepoContract
