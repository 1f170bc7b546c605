/-
# RepoContract.Proofs.Run.Sources: what a run judges

The source files of a run are found by following one path after the other. They are also told by
the tree at the root alone: they are what stands at the eligible locations of that tree, where it
is in a known language, in the order of the tree (`World.judgedSources_of_node`).

Each rule that judges files has one record for them, and no other record has the id of that rule
(`World.record_of_judges`, `World.violations_of_judges`). The same holds of a README that is too
long and of the record which says so (`World.record_of_excess`, `World.violations_of_excess`).
-/
import RepoContract.Proofs.Rule.Judgement
import RepoContract.Proofs.Run.Noninterference

namespace RepoContract

set_option autoImplicit false

namespace Eligibility

/-- No document below the root is a file of a built-in language. -/
theorem includes_document {declared excludes : List String} {found : Filter} {name : String}
    (isFilter : filter (LanguageTable.builtIn.extensionsFor declared) excludes = .ok found)
    (isDocument : name ∈ [contractFile, readmeFile]) :
    found.includes (.ofNames [(Path.ofString name).bytes]) = false := by
  have foreign : ∀ language ∈ LanguageTable.builtIn.languages, ∀ name ∈ [contractFile, readmeFile],
      ∀ extension ∈ language.extensions,
        (Path.ofNames [(Path.ofString name).bytes]).extensionText? ≠ some extension := by
    decide +kernel
  rw [(filter_spec isFilter _).1, Bool.and_eq_false_iff, ← Bool.not_eq_true, hasExtension_iff]
  left
  rintro ⟨extension, isListed, isExtension⟩
  obtain ⟨language, isKnown, isHere⟩ :=
    LanguageTable.exists_language_of_mem_extensionsFor isListed
  exact foreign language isKnown name isDocument extension isHere isExtension

end Eligibility

/-- The source file that stands at a location of a tree; none if it is in no known language. -/
def Node.sourceAt? (tree : Node) (names : List Name) : Option SourceFile :=
  match tree.at? names with
  | some (.file bytes) =>
    (SourceFile.classify? .builtIn (.ofNames names)).map fun language =>
      ⟨.ofNames names, language, Text.Utf8.decodeLossy bytes⟩
  | _ => none

/-- The extension of a path is that of its last name, wherever the path starts. -/
theorem Path.extension?_descend {root : Path} {names : List Name} (filled : root.bytes ≠ [])
    (entries : ∀ name ∈ names, IsEntryName name) (below : names ≠ []) :
    (root.descend names).extension? = (ofNames names).extension? := by
  rw [extension?, extension?, fileName?_ofNames entries]
  obtain ⟨front, last, rfl⟩ := List.eq_nil_or_concat names |>.resolve_left below
  have isLast : (root.descend (front.concat last)).fileName? = some last := by
    rw [fileName?, components_descend filled entries]
    simp
  rw [isLast]
  simp

namespace World

variable {world : World} {root : Path} {tree : Node} {names : List Name} {contract : Contract}
  {excludes : List String} {found : Filter}

/-- What a file below the root is as a source is told by the tree at the root. -/
theorem source?_descend {files : List Path} (leads : world.node root = .ok tree)
    (entries : ∀ name ∈ names, Path.IsEntryName name) (below : names ≠ [])
    {bytes : List UInt8} (isFile : tree.at? names = some (.file bytes)) :
    Project.source? ⟨world, root, contract, ⟨root, files⟩, .builtIn⟩ (root.descend names) =
      tree.sourceAt? names := by
  have filled := bytes_ne_nil_of_node leads
  have sameLanguage : SourceFile.classify? .builtIn (root.descend names) =
      SourceFile.classify? .builtIn (.ofNames names) := by
    rw [SourceFile.classify?, SourceFile.classify?, Path.extensionText?, Path.extensionText?,
      Path.extension?_descend filled entries below]
  have isRead : world.readLossy (root.descend names) = .ok (Text.Utf8.decodeLossy bytes) := by
    rw [readLossy, read_descend leads entries isFile]
    rfl
  have isRelative : (⟨root, files⟩ : FileList).relative (root.descend names) = .ofNames names :=
    Path.relativeTo_descend filled entries
  simp only [Project.source?, sameLanguage, isRead, isRelative, Node.sourceAt?, isFile]
  cases SourceFile.classify? .builtIn (.ofNames names) <;> rfl

/-- The sources of the files that a filter takes from the tree at the root. -/
theorem sources_of_node
    (isFilter : Eligibility.filter (LanguageTable.builtIn.extensionsFor contract.languages)
      excludes = .ok found)
    (proper : tree.isProper = true) (leads : world.node root = .ok tree) :
    Project.sources ⟨world, root, contract, ⟨root, (tree.files found []).map root.descend⟩,
      .builtIn⟩ = (tree.files found []).filterMap tree.sourceAt? := by
  rw [Project.sources, List.filterMap_map]
  refine List.filterMap_congr fun names isListed => ?_
  obtain ⟨⟨bytes, isFile⟩, isTaken⟩ := (Node.mem_files_iff proper).1 isListed
  have below : names ≠ [] := by
    rintro rfl
    rw [Filter.takes, Eligibility.includes_root isFilter] at isTaken
    contradiction
  exact source?_descend leads (Node.isProper_at? proper isFile).1 below isFile

/-- The source files of a run with a contract. -/
def judgedSources (world : World) (root : Path) (contract : Contract) (excludes : List String) :
    List SourceFile :=
  match world.scan root .builtIn contract.languages excludes with
  | .ok files => Project.sources ⟨world, root, contract, files, .builtIn⟩
  | .error _ => []

theorem judgedSources_of_filter
    (isFilter : Eligibility.filter (LanguageTable.builtIn.extensionsFor contract.languages)
      excludes = .ok found)
    (proper : tree.isProper = true) (leads : world.node root = .ok tree) :
    world.judgedSources root contract excludes =
      (tree.files found []).filterMap tree.sourceAt? := by
  rw [judgedSources, scan_of_node isFilter proper leads]
  exact sources_of_node isFilter proper leads

/-- **The sources of a run are what stands at the eligible locations of the tree at its root.** -/
theorem judgedSources_of_node (contract : Contract)
    (usable : ∀ glob ∈ excludes, Glob.isUsable glob = true)
    (proper : tree.isProper = true) (leads : world.node root = .ok tree) :
    world.judgedSources root contract excludes =
      ((tree.files Node.everything []).filter fun names =>
        Eligible (LanguageTable.builtIn.extensionsFor contract.languages) excludes names).filterMap
          tree.sourceAt? := by
  obtain ⟨found, isFilter⟩ := Eligibility.exists_filter_of_usable
    (LanguageTable.builtIn.extensionsFor contract.languages) usable
  rw [judgedSources_of_filter isFilter proper leads, Eligibility.files_eq isFilter proper]

end World

/-! ## The record of a rule -/

/-- The records of a rule have its id, or that of its warnings. -/
theorem Rule.id_of_mem_records {rule : Rule} {project : Project} {record : Record}
    (isRecord : record ∈ (rule.execute project).records) :
    record.id = rule.id ∨ record.id = rule.id ++ "-warnings" := by
  have owes := rule.owes_execute project
  generalize rule.check project = verdict, (rule.execute project).records = share at isRecord owes
  cases owes with
  | quiet _ | refused fault | crashed text | crashedSilently =>
      rw [List.mem_singleton.1 isRecord]
      exact .inl rfl
  | warned _ =>
      rcases List.mem_cons.1 isRecord with rfl | isFurther
      · exact .inl rfl
      · rw [List.mem_singleton.1 isFurther]
        exact .inr rfl

/-- No built-in rule has the id of the warnings of another. -/
theorem RuleTable.id_ne_warnings {rule other : Rule} (isRule : rule ∈ builtIn.rules)
    (isOther : other ∈ builtIn.rules) : other.id ++ "-warnings" ≠ rule.id := by
  have apart : ∀ id ∈ builtIn.rules.map (·.id), ∀ otherId ∈ builtIn.rules.map (·.id),
      otherId ++ "-warnings" ≠ id := by
    decide +kernel
  exact apart _ (List.mem_map_of_mem isRule) _ (List.mem_map_of_mem isOther)

/-- A built-in rule is told by its id. -/
theorem RuleTable.eq_of_id {rule other : Rule} (isRule : rule ∈ builtIn.rules)
    (isOther : other ∈ builtIn.rules) (sameId : other.id = rule.id) : other = rule :=
  List.inj_on_of_nodup_map nodup_ids_builtIn isOther isRule sameId

/-- The rule on the README. -/
def Rule.readme : Rule :=
  ⟨"agent-readme", "Agent README", .error, checkReadme⟩

/-- Every contract selects the rule on the README. -/
theorem RuleTable.readme_mem_select (contract : Contract) :
    Rule.readme ∈ builtIn.select contract :=
  List.mem_append_left _ (by simp [Rule.readme, builtIn, builtInWith, universalRules])

namespace World

variable {world : World} {root : Path} {contract : Contract} {excludes : List String}
  {rule : Rule} {judge : Contract → SourceFile → List Violation}

/-- A run whose contract loads and whose globs can be used executes its rules. -/
theorem exists_files_of_usable (world : World) (root : Path) (contract : Contract)
    (usable : ∀ glob ∈ excludes, Glob.isUsable glob = true) :
    ∃ files, world.scan root .builtIn contract.languages excludes = .ok files := by
  obtain ⟨found, isFilter⟩ := Eligibility.exists_filter_of_usable
    (LanguageTable.builtIn.extensionsFor contract.languages) usable
  rw [scan, isFilter]
  exact ⟨_, rfl⟩

/-- A rule that judges files has a record of what it says of each of them. -/
theorem record_of_judges (loads : (world.loadContract root).contract = some contract)
    (usable : ∀ glob ∈ excludes, Glob.isUsable glob = true)
    (selected : rule ∈ RuleTable.builtIn.select contract) (judges : rule.Judges judge) :
    ∃ record ∈ (world.validate root excludes .builtIn).records,
      record.id = rule.id ∧ record.severity = rule.severity ∧
        record.violations =
          (world.judgedSources root contract excludes).flatMap (judge contract) := by
  obtain ⟨files, lists⟩ := exists_files_of_usable world root contract usable
  rw [validate_of_ok world root excludes _ loads lists, Summary.ofRecords_eq, judgedSources, lists]
  let project : Project := ⟨world, root, contract, files, .builtIn⟩
  have isRecord : ⟨rule.id, rule.name, rule.severity, project.sources.flatMap (judge contract)⟩ ∈
      (rule.execute project).records := by
    rw [Rule.records_of_found (judges.check project rfl)]
    exact List.mem_singleton_self _
  exact ⟨_, List.mem_flatMap.2 ⟨rule, selected, isRecord⟩, rfl, rfl, rfl⟩

/-- **A record with the id of a rule that judges files holds what the rule says of each file.** -/
theorem violations_of_judges (loads : (world.loadContract root).contract = some contract)
    (usable : ∀ glob ∈ excludes, Glob.isUsable glob = true)
    (isRule : rule ∈ RuleTable.builtIn.rules) (judges : rule.Judges judge) {record : Record}
    (isRecord : record ∈ (world.validate root excludes .builtIn).records)
    (sameId : record.id = rule.id) :
    record.violations = (world.judgedSources root contract excludes).flatMap (judge contract) := by
  obtain ⟨files, lists⟩ := exists_files_of_usable world root contract usable
  rw [validate_of_ok world root excludes _ loads lists, Summary.ofRecords_eq] at isRecord
  obtain ⟨other, selected, isRecord⟩ := List.mem_flatMap.1 isRecord
  have isOther := RuleTable.mem_rules_of_mem_select selected
  rcases Rule.id_of_mem_records isRecord with isOwn | isFurther
  · obtain rfl := RuleTable.eq_of_id isRule isOther (isOwn.symm.trans sameId)
    rw [Rule.records_of_found (judges.check _ rfl)] at isRecord
    rw [List.mem_singleton.1 isRecord, judgedSources, lists]
  · exact absurd (isFurther.symm.trans sameId) (RuleTable.id_ne_warnings isRule isOther)

/-! ## The record of the README's length -/

/-- A README that is too long has a record which says so. -/
theorem record_of_excess (loads : (world.loadContract root).contract = some contract)
    (usable : ∀ glob ∈ excludes, Glob.isUsable glob = true) {words : Nat}
    (excess : words ∈ world.excessWords root) :
    ∃ record ∈ (world.validate root excludes .builtIn).records,
      record.id = "agent-readme-warnings" ∧ record.violations = Rule.lengthWarnings words := by
  obtain ⟨files, lists⟩ := exists_files_of_usable world root contract usable
  rw [validate_of_ok world root excludes _ loads lists, Summary.ofRecords_eq]
  have isLong : Rule.readmeWordLimit < words :=
    of_decide_eq_true (Option.mem_filter_iff.1 excess).2
  let record : Record := ⟨"agent-readme-warnings", Rule.readme.name ++ " (warnings)", .warn,
    Rule.lengthWarnings words⟩
  have isRecord : record ∈ (Rule.readme.execute ⟨world, root, contract, files, .builtIn⟩).records := by
    rw [Rule.records_of_readme rfl rfl, Option.mem_def.1 excess]
    simp [Rule.lengthRecords, isLong, record]
  exact ⟨record, List.mem_flatMap.2 ⟨Rule.readme, RuleTable.readme_mem_select contract, isRecord⟩,
    rfl, rfl⟩

/-- **Whatever record warns of the README's length tells the number of its words.** -/
theorem violations_of_excess (loads : (world.loadContract root).contract = some contract)
    (usable : ∀ glob ∈ excludes, Glob.isUsable glob = true) {record : Record}
    (isRecord : record ∈ (world.validate root excludes .builtIn).records)
    (sameId : record.id = "agent-readme-warnings") :
    ∃ words ∈ world.excessWords root, record.violations = Rule.lengthWarnings words := by
  obtain ⟨files, lists⟩ := exists_files_of_usable world root contract usable
  rw [validate_of_ok world root excludes _ loads lists, Summary.ofRecords_eq] at isRecord
  obtain ⟨rule, selected, isRecord⟩ := List.mem_flatMap.1 isRecord
  have isRule := RuleTable.mem_rules_of_mem_select selected
  have noOwn : rule.id ≠ record.id := by
    have none : ∀ id ∈ RuleTable.builtIn.rules.map (·.id), id ≠ "agent-readme-warnings" := by
      decide +kernel
    rw [sameId]
    exact none _ (List.mem_map_of_mem isRule)
  cases Rule.judgement_of_mem isRule with
  | files _ judges =>
      rw [Rule.records_of_found (judges.check _ rfl), List.mem_singleton] at isRecord
      exact absurd (congrArg Record.id isRecord).symm noOwn
  | contract _ passes =>
      rw [Rule.records_of_found (passes _ contract loads), List.mem_singleton] at isRecord
      exact absurd (congrArg Record.id isRecord).symm noOwn
  | readme isNamed isCheck =>
      rw [Rule.records_of_readme isNamed isCheck] at isRecord
      rcases List.mem_cons.1 isRecord with isOwn | isFurther
      · exact absurd (congrArg Record.id isOwn).symm noOwn
      · obtain ⟨words, excess, isFurther⟩ := List.mem_flatMap.1 isFurther
        refine ⟨words, Option.mem_toList.1 excess, ?_⟩
        rw [Rule.lengthRecords] at isFurther
        split at isFurther
        · rw [List.mem_singleton.1 isFurther]
        · contradiction

end World

end RepoContract
