/-
# RepoContract.Proofs.Run.Report: what a run reports

A run ends early with one failed record, or reports on every rule. What a rule owes depends on
how its own check ended and on nothing else (`Rule.Owes`), so a check that refuses or crashes
costs the report no other record. The report is the shares of the rules, one behind the other;
its counts follow from the counts of one share (`Rule.Owes.counts`) by induction on the rules.
A record that stands for a failure holds its message, and the message names the cause
(`Rule.Owes.refused_names`, `contractRecord_names`, `scanRecord_names`).
-/
import Mathlib.Data.List.Forall2
import RepoContract.Proofs.Contract.RoundTrip
import RepoContract.Proofs.Eligibility
import RepoContract.Proofs.Fault
import RepoContract.Proofs.Summary.Tally
import RepoContract.Run

namespace RepoContract

set_option autoImplicit false

/-! ## What a rule owes -/

/-- Whether a check completed with warnings. -/
def Verdict.warns : Verdict → Bool
  | .completed outcome => !outcome.warnings.isEmpty
  | .refused _ | .crashed _ => false

namespace Rule

/-- The records that a rule owes for how its check ended. -/
inductive Owes (rule : Rule) : Verdict → List Record → Prop
  | quiet {outcome : Outcome} (nothing : outcome.warnings = []) :
      Owes rule (.completed outcome) [⟨rule.id, rule.name, rule.severity, outcome.violations⟩]
  | warned {outcome : Outcome} (something : outcome.warnings ≠ []) :
      Owes rule (.completed outcome) [⟨rule.id, rule.name, rule.severity, outcome.violations⟩,
        ⟨rule.id ++ "-warnings", rule.name ++ " (warnings)", .warn, outcome.warnings⟩]
  | refused (fault : Fault) :
      Owes rule (.refused fault) [⟨rule.id, rule.name, .error,
        [.general ("rule execution failed: " ++ fault.message)]⟩]
  | crashed (text : String) :
      Owes rule (.crashed (some text)) [⟨rule.id, rule.name, .error,
        [.general ("rule execution failed: " ++ text)]⟩]
  | crashedSilently :
      Owes rule (.crashed none) [⟨rule.id, rule.name, .error,
        [.general "rule execution failed: unknown panic"]⟩]

/-- Whether a rule of severity error found nothing. -/
def passes (rule : Rule) : Verdict → Bool
  | .completed outcome => rule.severity = .error && outcome.violations.isEmpty
  | .refused _ | .crashed _ => false

/-- Whether a rule of severity error found something, or the check of any rule did not complete. -/
def fails (rule : Rule) : Verdict → Bool
  | .completed outcome => rule.severity = .error && !outcome.violations.isEmpty
  | .refused _ | .crashed _ => true

/-- Whether a rule of severity warn found something. -/
def cautions (rule : Rule) : Verdict → Bool
  | .completed outcome => rule.severity = .warn && !outcome.violations.isEmpty
  | .refused _ | .crashed _ => false

/-- Executing a rule yields what it owes. -/
theorem owes_execute (rule : Rule) (project : Project) :
    rule.Owes (rule.check project) (rule.execute project).records := by
  unfold execute
  cases rule.check project with
  | completed outcome =>
      by_cases nothing : outcome.warnings = []
      · simpa [Execution.records, recordsOf, nothing] using Owes.quiet nothing
      · simpa [Execution.records, recordsOf, nothing] using Owes.warned nothing
  | refused fault => exact .refused fault
  | crashed text =>
      cases text with
      | none => exact .crashedSilently
      | some text => exact .crashed text

/-- How a check ended settles the share of its rule. -/
theorem Owes.unique {rule : Rule} {verdict : Verdict} {share other : List Record}
    (owes : rule.Owes verdict share) (owesOther : rule.Owes verdict other) : share = other := by
  cases owes <;> cases owesOther <;> first | rfl | contradiction

/-- **A refused check owes its cause**: the whole share names the parts of the fault. -/
theorem Owes.refused_names {rule : Rule} {fault : Fault} {share : List Record}
    (owes : rule.Owes (.refused fault) share) :
    ∀ record ∈ share, ∀ violation ∈ record.violations, ∀ part ∈ fault.parts,
      Names violation.message part := by
  cases owes with
  | refused =>
      intro record isOwed violation isHeld part isPart
      obtain rfl := List.mem_singleton.1 isOwed
      obtain rfl := List.mem_singleton.1 isHeld
      exact (fault.message_names part isPart).back _

/-- What one share adds to each count. -/
theorem Owes.counts {rule : Rule} {verdict : Verdict} {share : List Record}
    (owes : rule.Owes verdict share) :
    share.length = 1 + (if verdict.warns then 1 else 0) ∧
    countOf .error true share = (if rule.passes verdict then 1 else 0) ∧
    countOf .error false share = (if rule.fails verdict then 1 else 0) ∧
    countOf .warn false share =
      (if rule.cautions verdict then 1 else 0) + (if verdict.warns then 1 else 0) := by
  cases owes with
  | quiet nothing =>
      simp [Verdict.warns, passes, fails, cautions, countOf_cons, countOf_nil, Record.isClean,
        nothing]
  | warned something =>
      simp [Verdict.warns, passes, fails, cautions, countOf_cons, countOf_nil, Record.isClean,
        something]
      omega
  | refused fault | crashed text | crashedSilently =>
      simp [Verdict.warns, passes, fails, cautions, countOf_cons, countOf_nil, Record.isClean]

end Rule

/-! ## The shares of all rules -/

/-- A summary reports on rules whose checks ended in some way: its records are the shares of the
rules in order, and its counts are those of the rules. -/
structure Summary.ReportsOn (summary : Summary) (rules : List Rule) (verdict : Rule → Verdict) :
    Prop where
  shares : ∃ shares, summary.records = shares.flatten ∧
    List.Forall₂ (fun rule share => rule.Owes (verdict rule) share) rules shares
  length : summary.records.length =
    rules.length + rules.countP fun rule => (verdict rule).warns
  passed : summary.passed = rules.countP fun rule => rule.passes (verdict rule)
  failed : summary.failed = rules.countP fun rule => rule.fails (verdict rule)
  warnings : summary.warnings = (rules.countP fun rule => rule.cautions (verdict rule)) +
    rules.countP fun rule => (verdict rule).warns

/-- The counts of all shares, one rule after the other. -/
theorem counts_flatten {rules : List Rule} {verdict : Rule → Verdict} {shares : List (List Record)}
    (owed : List.Forall₂ (fun rule share => rule.Owes (verdict rule) share) rules shares) :
    shares.flatten.length = rules.length + (rules.countP fun rule => (verdict rule).warns) ∧
    countOf .error true shares.flatten = (rules.countP fun rule => rule.passes (verdict rule)) ∧
    countOf .error false shares.flatten = (rules.countP fun rule => rule.fails (verdict rule)) ∧
    countOf .warn false shares.flatten =
      (rules.countP fun rule => rule.cautions (verdict rule)) +
        rules.countP fun rule => (verdict rule).warns := by
  induction owed with
  | nil => exact ⟨rfl, rfl, rfl, rfl⟩
  | cons owes _ ih =>
      -- the share in front and the shares behind it add up
      obtain ⟨length, passed, failed, warnings⟩ := owes.counts
      obtain ⟨restLength, restPassed, restFailed, restWarnings⟩ := ih
      simp only [List.flatten_cons, List.length_append, List.length_cons, countOf_append,
        List.countP_cons]
      omega

/-- **The records of executed rules report on each of them.** -/
theorem Summary.ofRecords_reportsOn (rules : List Rule) (project : Project) :
    (ofRecords (rules.flatMap fun rule => (rule.execute project).records)).ReportsOn rules
      (·.check project) := by
  have owed : List.Forall₂ (fun rule share => rule.Owes (rule.check project) share) rules
      (rules.map fun rule => (rule.execute project).records) := by
    rw [List.forall₂_map_right_iff, List.forall₂_same]
    exact fun rule _ => rule.owes_execute project
  obtain ⟨length, passed, failed, warnings⟩ := counts_flatten owed
  rw [List.flatMap_def, ofRecords_eq]
  exact ⟨⟨_, rfl, owed⟩, length, passed, failed, warnings⟩

/-! ## The report of a run -/

/-- The record of a contract that does not load names the parts of every problem. -/
theorem contractRecord_names {problems : List LoadProblem} {problem : LoadProblem}
    (isProblem : problem ∈ problems) :
    ∃ violation ∈ (contractRecord problems).violations, ∀ part ∈ problem.parts,
      Names violation.message part :=
  ⟨_, List.mem_map_of_mem isProblem, problem.message_names⟩

/-- The record of a scan that cannot be set up names the parts of the fault. -/
theorem scanRecord_names (fault : Fault) :
    ∀ violation ∈ (scanRecord fault).violations, ∀ part ∈ fault.parts,
      Names violation.message part :=
  List.forall_mem_singleton.2 fault.message_names

namespace World

variable (world : World) (root : Path) (excludes : List String) (table : RuleTable)

/-- A contract that does not load has problems. -/
theorem problems_of_loadContract (fails : (world.loadContract root).contract = none) :
    (world.loadContract root).problems ≠ [] := by
  rcases Loaded.ofProject_verdict root (world.isFile (contractPath root))
      (world.readText (contractPath root)) with ⟨⟨contract, loads⟩, -⟩ | ⟨-, some⟩
  · exact absurd (fails.symm.trans loads) nofun
  · exact some

theorem validate_of_none (fails : (world.loadContract root).contract = none) :
    world.validate root excludes table =
      ⟨0, 1, 0, [contractRecord (world.loadContract root).problems]⟩ := by
  have some := world.problems_of_loadContract root fails
  simp [validate, runRecords, fails, Summary.ofRecords_eq, countOf_cons, countOf_nil,
    contractRecord, Record.isClean, some]

theorem validate_of_error {contract : Contract} {fault : Fault}
    (loads : (world.loadContract root).contract = some contract)
    (stops : world.scan root .builtIn contract.languages excludes = .error fault) :
    world.validate root excludes table = ⟨0, 1, 0, [scanRecord fault]⟩ := by
  simp [validate, runRecords, loads, stops, Summary.ofRecords_eq, countOf_cons, countOf_nil,
    scanRecord, Record.isClean]

theorem validate_of_ok {contract : Contract} {files : FileList}
    (loads : (world.loadContract root).contract = some contract)
    (lists : world.scan root .builtIn contract.languages excludes = .ok files) :
    world.validate root excludes table =
      .ofRecords ((table.select contract).flatMap fun rule =>
        (rule.execute ⟨world, root, contract, files, .builtIn⟩).records) := by
  simp [validate, runRecords, loads, lists]

/-- **A run reports completely.** A contract that does not load is one failed record with a
violation for each problem; globs that cannot be used are one failed record; else every rule that
the contract selects has its share. Each record is counted once, whatever the run. What the
messages name is `LoadProblem.message_names` and `Fault.message_names`. -/
theorem validate_reports :
    (world.validate root excludes table).Tallied ∧
    ((world.loadContract root).contract = none →
      (world.loadContract root).problems ≠ [] ∧
      (world.validate root excludes table).records =
        [⟨"contract", "Repository contract", .error, (world.loadContract root).problems.map
          fun problem => .inFile (Path.ofString contractFile) problem.message⟩] ∧
      (world.validate root excludes table).failed = 1 ∧
      (world.validate root excludes table).exitCode = 1) ∧
    ∀ contract, (world.loadContract root).contract = some contract →
      ((∃ glob ∈ excludes, Glob.isUsable glob = false) →
        ∃ fault, Glob.Faulty excludes fault ∧
          (world.validate root excludes table).records =
            [⟨"scan", "Project scan", .error, [.general fault.message]⟩] ∧
          (world.validate root excludes table).failed = 1 ∧
          (world.validate root excludes table).exitCode = 1) ∧
      ((∀ glob ∈ excludes, Glob.isUsable glob = true) →
        ∃ files, world.scan root .builtIn contract.languages excludes = .ok files ∧
          (world.validate root excludes table).ReportsOn (table.select contract)
            (·.check ⟨world, root, contract, files, .builtIn⟩)) := by
  refine ⟨Summary.ofRecords_tallied _, ?_, ?_⟩
  · intro fails
    rw [validate_of_none world root excludes table fails]
    exact ⟨world.problems_of_loadContract root fails, rfl, rfl, rfl⟩
  · intro contract loads
    rcases world.scan_verdict root .builtIn contract.languages excludes with
      ⟨files, lists, usable⟩ | ⟨fault, stops, faulty⟩
    · rw [validate_of_ok world root excludes table loads lists]
      refine ⟨?_, fun _ => ⟨files, lists, Summary.ofRecords_reportsOn _ _⟩⟩
      rintro ⟨glob, given, unusable⟩
      rw [usable glob given] at unusable
      contradiction
    · rw [validate_of_error world root excludes table loads stops]
      refine ⟨fun _ => ⟨fault, faulty, rfl, rfl, rfl⟩, ?_⟩
      intro usable
      obtain ⟨glob, given, unusable⟩ := faulty.exists_unusable
      rw [usable glob given] at unusable
      contradiction

/-- The tree of a project that holds nothing but the file of its contract. -/
def holding (bytes : List UInt8) : World :=
  ⟨.dir [((Path.ofString contractFile).bytes, .file bytes)], []⟩

theorem node_holding (bytes : List UInt8) :
    (holding bytes).node (contractPath (Path.ofString ".")) = .ok (.file bytes) := by
  have moves : (contractPath (Path.ofString ".")).moves =
      [.stay, .down (Path.ofString contractFile).bytes] := by
    decide +kernel
  have located : (holding bytes).locate .follow (contractPath (Path.ofString ".")) =
      .ok [(Path.ofString contractFile).bytes] := by
    rw [locate, if_neg (by decide +kernel), moves, if_neg (by decide +kernel)]
    simp [locateFrom, holding, Node.at?]
  rw [node, located]
  simp [bind, Except.bind, pure, Except.pure, holding, Node.at?, Node.child?]

/-- The contract of such a project is that of its file. -/
theorem loadContract_holding {bytes : List UInt8} {text : List Char}
    (decodes : Text.Utf8.decode? bytes = some text) :
    (holding bytes).loadContract (Path.ofString ".") =
      Loaded.ofText (contractPath (Path.ofString ".")) text := by
  have isThere : (holding bytes).isFile (contractPath (Path.ofString ".")) = true := by
    rw [isFile, node_holding]
  have reads : (holding bytes).readText (contractPath (Path.ofString ".")) = .ok text := by
    simp [readText, read, node_holding, bind, Except.bind, pure, Except.pure, decodes]
  rw [loadContract, isThere, reads]
  rfl

/-- Rules that pass, refuse, crash, and find and warn at once. -/
def mixedRules : RuleTable :=
  .ofUniversal [
    ⟨"first", "First", .error, fun _ => .pass⟩,
    ⟨"refusing", "Refusing", .warn, fun _ => .refused (.rule "refusing" "no")⟩,
    ⟨"crashing", "Crashing", .error, fun _ => .crashed none⟩,
    ⟨"mixed", "Mixed", .error, fun _ => .completed ⟨[.general "wrong"], [.general "odd"]⟩⟩]

/-- A project with a contract for one language. -/
def goProject : World :=
  holding (Text.Utf8.encode (Contract.minimal ["go"] .lite).render.toList)

/-- A file that is empty is no contract; with a contract, a broken glob ends the run; and without
such a glob all four rules report, one of them twice. -/
theorem validate_reports_mixedRules :
    ((holding []).validate (Path.ofString ".") [] mixedRules).exitCode = 1 ∧
    (goProject.validate (Path.ofString ".") ["src/["] mixedRules).exitCode = 1 ∧
    (goProject.validate (Path.ofString ".") [] mixedRules).records.length = 5 ∧
    (goProject.validate (Path.ofString ".") [] mixedRules).passed = 1 ∧
    (goProject.validate (Path.ofString ".") [] mixedRules).failed = 3 ∧
    (goProject.validate (Path.ofString ".") [] mixedRules).warnings = 1 := by
  have fails : ((holding []).loadContract (Path.ofString ".")).contract = none := by
    have decodes : Text.Utf8.decode? [] = some [] := by
      decide +kernel
    rw [loadContract_holding decodes]
    rfl
  have loads : (goProject.loadContract (Path.ofString ".")).contract =
      some (.minimal ["go"] .lite) := by
    have decodes : Text.Utf8.decode? (Text.Utf8.encode
        (Contract.minimal ["go"] .lite).render.toList) =
          some (Contract.minimal ["go"] .lite).render.toList := by
      decide +kernel
    have admissible : (Contract.minimal ["go"] .lite).Admissible := by
      refine ⟨⟨'1', ?_⟩, ?_, ?_, ?_, ?_⟩ <;> decide
    have loaded := (admissible.loads_render (contractPath (Path.ofString ".")) []
      (List.forall_mem_nil _)).2
    rw [List.append_nil] at loaded
    rw [goProject, loadContract_holding decodes, loaded]
  obtain ⟨-, -, -, refused⟩ := (validate_reports (holding []) (Path.ofString ".") [] mixedRules).2.1
    fails
  obtain ⟨_, -, -, -, stopped⟩ := ((validate_reports goProject (Path.ofString ".") ["src/["]
    mixedRules).2.2 _ loads).1 ⟨_, List.mem_singleton_self _, by decide +kernel⟩
  obtain ⟨files, -, reports⟩ := ((validate_reports goProject (Path.ofString ".") []
    mixedRules).2.2 _ loads).2 (List.forall_mem_nil _)
  exact ⟨refused, stopped, reports.length, reports.passed, reports.failed, reports.warnings⟩

end World

end RepoContract
