/-
# RepoContract.Run: validating a project

A run loads the contract, lists the files of the project and executes every rule that applies. A
contract that does not load and a glob that is none end the run with one record of their own. A
check that refuses or crashes yields one failed record for its rule; the other rules still run.
-/
import RepoContract.Contract.Loading
import RepoContract.Eligibility
import RepoContract.Language.BuiltIn
import RepoContract.Rule.Table
import RepoContract.Summary.Basic

namespace RepoContract

set_option autoImplicit false

/-- How a rule was executed. -/
inductive Execution where
  | completed (records : List Record)
  | failed (record : Record)
  deriving DecidableEq, Repr

def Execution.records : Execution → List Record
  | .completed records => records
  | .failed record => [record]

namespace Rule

/-- The record of a rule, and one of its warnings if there are any. -/
def recordsOf (rule : Rule) (outcome : Outcome) : List Record :=
  ⟨rule.id, rule.name, rule.severity, outcome.violations⟩ ::
    if outcome.warnings.isEmpty then []
    else [⟨rule.id ++ "-warnings", rule.name ++ " (warnings)", .warn, outcome.warnings⟩]

/-- The record of a rule whose check did not complete; its severity is always error. -/
def failure (rule : Rule) (description : String) : Record :=
  ⟨rule.id, rule.name, .error, [.general ("rule execution failed: " ++ description)]⟩

/-- Execute a rule on a project. -/
def execute (rule : Rule) (project : Project) : Execution :=
  match rule.check project with
  | .completed outcome => .completed (rule.recordsOf outcome)
  | .refused fault => .failed (rule.failure fault.message)
  | .crashed text => .failed (rule.failure (text.getD "unknown panic"))

end Rule

/-- Load the contract of a project. -/
def World.loadContract (world : World) (root : Path) : Loaded :=
  let path := contractPath root
  .ofProject root (world.isFile path) (world.readText path)

/-- The record of a contract that does not load. -/
def contractRecord (problems : List LoadProblem) : Record :=
  ⟨"contract", "Repository contract", .error,
    problems.map fun problem => .inFile (Path.ofString contractFile) problem.message⟩

/-- The record of a scan that cannot be set up. -/
def scanRecord (fault : Fault) : Record :=
  ⟨"scan", "Project scan", .error, [.general fault.message]⟩

/-- The records of a run. -/
def World.runRecords (world : World) (root : Path) (excludes : List String) (table : RuleTable) :
    List Record :=
  let loaded := world.loadContract root
  match loaded.contract with
  | none => [contractRecord loaded.problems]
  | some contract =>
    match world.scan root .builtIn contract.languages excludes with
    | .error fault => [scanRecord fault]
    | .ok files =>
      (table.select contract).flatMap fun rule =>
        (rule.execute ⟨world, root, contract, files, .builtIn⟩).records

/-- Validate a project. -/
def World.validate (world : World) (root : Path) (excludes : List String) (table : RuleTable) :
    Summary :=
  .ofRecords (world.runRecords root excludes table)

end RepoContract
