/-
# RepoContract.Proofs.Run.Coverage: more is judged, nothing less is found

A file is judged for what it holds, whatever stands around it. So a run that judges more files finds
what a run on fewer of them finds, and more perhaps, but nothing less (`Summary.CoveredBy`): fewer
globs leave out fewer files, more declared languages list more files and select more rules, and
what a rule says does not depend on the languages declared (`Rule.coveredBy_of_within`).

A longer list of languages stands in another contract, though, so it takes a tree with another
contract file. A file that is judged, or the README, may lead to that file through a link, and then
its text changes with the contract (`World.not_coveredBy_of_links`). Where no judged file does, and
the README keeps its excess of words, nothing gets lost (`World.validate_coveredBy`).
-/
import Mathlib.Data.List.Flatten
import RepoContract.Proofs.Run.Recontracted

namespace RepoContract

set_option autoImplicit false

/-! ## Records that cover others -/

/-- What is found in a record is found in another one with the same id. -/
structure Record.CoveredBy (first second : Record) : Prop where
  id : second.id = first.id
  violations : first.violations.Sublist second.violations

/-- For each record of a summary there is one in another summary that covers it. -/
def Summary.CoveredBy (first second : Summary) : Prop :=
  ∀ record ∈ first.records, ∃ other ∈ second.records, record.CoveredBy other

theorem Summary.CoveredBy.refl (summary : Summary) : summary.CoveredBy summary :=
  fun record isRecord => ⟨record, isRecord, rfl, List.Sublist.refl _⟩

/-! ## Rules on wider projects -/

/-- A project is within another one: that has the same contract but for the languages, no fewer
source files, and a README just as well, which is as long if it is too long here. -/
structure Project.Within (first second : Project) : Prop where
  isLoaded : first.IsLoaded
  widerIsLoaded : second.IsLoaded
  contract : second.contract = { first.contract with languages := second.contract.languages }
  sources : first.sources.Sublist second.sources
  readme : (first.world.readmeWords first.root).isSome =
    (second.world.readmeWords second.root).isSome
  excess : ∀ words ∈ first.world.excessWords first.root,
    words ∈ second.world.excessWords second.root

namespace Rule

variable {rule : Rule} {first second : Project}

/-- **A built-in rule finds no less in a wider project.** -/
theorem coveredBy_of_within (isRule : rule ∈ RuleTable.builtIn.rules)
    (within : first.Within second) :
    ∀ record ∈ (rule.execute first).records,
      ∃ other ∈ (rule.execute second).records, record.CoveredBy other := by
  intro record isRecord
  cases judgement_of_mem isRule with
  | files _ judges =>
      rename_i judge
      have sameJudge (source : SourceFile) :
          judge second.contract source = judge first.contract source := by
        rw [within.contract]
        exact judges.undeclared _ _ _
      rw [records_of_found (judges.check first within.isLoaded.table),
        List.mem_singleton] at isRecord
      rw [records_of_found (judges.check second within.widerIsLoaded.table), isRecord]
      refine ⟨_, List.mem_singleton_self _, rfl, ?_⟩
      rw [funext sameJudge]
      exact within.sources.flatMap _
  | contract _ passes =>
      rw [records_of_found (passes first _ within.isLoaded.loads), List.mem_singleton] at isRecord
      rw [records_of_found (passes second _ within.widerIsLoaded.loads), isRecord]
      exact ⟨_, List.mem_singleton_self _, rfl, List.Sublist.refl _⟩
  | readme isNamed isCheck =>
      rw [records_of_readme isNamed isCheck] at isRecord ⊢
      rcases List.mem_cons.1 isRecord with isOwn | isFurther
      · rw [isOwn, within.readme]
        exact ⟨_, List.mem_cons_self, rfl, List.Sublist.refl _⟩
      · obtain ⟨words, excess, isFurther⟩ := List.mem_flatMap.1 isFurther
        have widerExcess := within.excess words (Option.mem_toList.1 excess)
        have isThere : record ∈
            (second.world.excessWords second.root).toList.flatMap rule.lengthRecords :=
          List.mem_flatMap.2 ⟨words, Option.mem_toList.2 widerExcess, isFurther⟩
        exact ⟨record, List.mem_cons_of_mem _ isThere, rfl, List.Sublist.refl _⟩

end Rule

namespace World

variable {world before after : World} {root : Path} {contract : Contract}
  {excludes : List String}

/-- A run on a wider project with more rules finds no less. -/
theorem coveredBy_of_within {wider : World} {widerContract : Contract} {fewer : List String}
    {files widerFiles : FileList}
    (lists : world.scan root .builtIn contract.languages excludes = .ok files)
    (widerLists : wider.scan root .builtIn widerContract.languages fewer = .ok widerFiles)
    (selects : ∀ rule ∈ RuleTable.builtIn.select contract,
      rule ∈ RuleTable.builtIn.select widerContract)
    (within : Project.Within ⟨world, root, contract, files, .builtIn⟩
      ⟨wider, root, widerContract, widerFiles, .builtIn⟩) :
    (world.validate root excludes .builtIn).CoveredBy (wider.validate root fewer .builtIn) := by
  rw [validate_of_ok world root excludes _ within.isLoaded.loads lists,
    validate_of_ok wider root fewer _ within.widerIsLoaded.loads widerLists,
    Summary.ofRecords_eq, Summary.ofRecords_eq]
  intro record isRecord
  obtain ⟨rule, selected, isShare⟩ := List.mem_flatMap.1 isRecord
  obtain ⟨other, isOther, covered⟩ := Rule.coveredBy_of_within
    (RuleTable.mem_rules_of_mem_select selected) within record isShare
  exact ⟨other, List.mem_flatMap.2 ⟨rule, selects rule selected, isOther⟩, covered⟩

/-- More globs find nothing more. -/
theorem coveredBy_of_globs {more fewer : List String} (root : Path)
    (proper : world.root.isProper = true) (isFewer : ∀ glob ∈ fewer, glob ∈ more)
    (usable : ∀ glob ∈ more, Glob.isUsable glob = true) :
    (world.validate root more .builtIn).CoveredBy (world.validate root fewer .builtIn) := by
  cases loads : (world.loadContract root).contract with
  | none =>
      rw [validate_of_none world root more _ loads, validate_of_none world root fewer _ loads]
      exact .refl _
  | some contract =>
      obtain ⟨found, isFilter⟩ := Eligibility.exists_filter_of_usable
        (LanguageTable.builtIn.extensionsFor contract.languages) usable
      obtain ⟨wider, isWider⟩ := Eligibility.exists_filter_of_usable
        (LanguageTable.builtIn.extensionsFor contract.languages) fun glob given =>
          usable glob (isFewer glob given)
      obtain ⟨listed, widerListed, lists, widerLists, isMore⟩ := scan_sublist proper isFilter
        isWider fun names eligible => eligible.mono (fun _ => id) isFewer
      refine coveredBy_of_within lists widerLists (fun _ => id)
        ⟨⟨rfl, loads⟩, ⟨rfl, loads⟩, rfl, ?_, rfl, fun _ => id⟩
      exact isMore.filterMap _

/-- A contract that declares further languages finds no less. -/
theorem coveredBy_of_languages {wider : Contract} {further : List String}
    (recontracted : before.Recontracted after root contract wider)
    (declares : wider = { contract with languages := contract.languages ++ further })
    (apart : before.ContractApart root contract.languages excludes)
    (excess : ∀ words ∈ before.excessWords root, words ∈ after.excessWords root) :
    (before.validate root excludes .builtIn).CoveredBy
      (after.validate root excludes .builtIn) := by
  have rewritten := recontracted.rewritten
  have languages : wider.languages = contract.languages ++ further := by rw [declares]
  rcases Eligibility.filter_verdict (LanguageTable.builtIn.extensionsFor contract.languages)
    excludes with ⟨found, isFilter, usable⟩ | ⟨fault, stops, -⟩
  · obtain ⟨widerFound, isWider⟩ := Eligibility.exists_filter_of_usable
      (LanguageTable.builtIn.extensionsFor wider.languages) usable
    have isMore (names : List Name)
        (eligible : Eligible (LanguageTable.builtIn.extensionsFor contract.languages) excludes
          names) :
        Eligible (LanguageTable.builtIn.extensionsFor wider.languages) excludes names := by
      rw [languages]
      exact eligible.mono (fun _ isListed => LanguageTable.mem_extensionsFor_append isListed _)
        fun _ => id
    obtain ⟨listed, widerListed, lists, widerLists, listsMore⟩ :=
      scan_sublist recontracted.proper isFilter isWider isMore
    have sameSources := rewritten.sources_eq apart lists wider
    rw [← rewritten.scan_eq] at widerLists
    refine coveredBy_of_within lists widerLists (fun rule selected => ?_)
      ⟨⟨rfl, recontracted.loads⟩, ⟨rfl, recontracted.otherLoads⟩, ?_, ?_,
        (rewritten.isSome_readmeWords root).symm, excess⟩
    · rw [declares]
      exact RuleTable.mem_select_append selected further
    · rw [declares]
    · rw [← sameSources]
      exact listsMore.filterMap _
  · have widerStops := Eligibility.filter_eq_error stops
      (LanguageTable.builtIn.extensionsFor wider.languages)
    rw [validate_of_error before root excludes _ recontracted.loads (scan_of_filter_error stops),
      validate_of_error after root excludes _ recontracted.otherLoads
        (scan_of_filter_error widerStops)]
    exact .refl _

/-- **Coverage is monotone from end to end.** Globs that are left out, and languages that are
declared in addition, hide no violation and drop no rule. The file with the contract must not be
judged under another name, though, and where the README is too long it must stay as long, for
either may be that file through a link. -/
theorem validate_coveredBy :
    (∀ (world : World) (root : Path) (fewer more : List String), world.root.isProper = true →
      (∀ glob ∈ fewer, glob ∈ more) → (∀ glob ∈ more, Glob.isUsable glob = true) →
      (world.validate root more .builtIn).CoveredBy (world.validate root fewer .builtIn)) ∧
    ∀ (before after : World) (root : Path) (contract : Contract) (further excludes : List String),
      before.Recontracted after root contract
        { contract with languages := contract.languages ++ further } →
      before.ContractApart root contract.languages excludes →
      (∀ words ∈ before.excessWords root, words ∈ after.excessWords root) →
      (before.validate root excludes .builtIn).CoveredBy
        (after.validate root excludes .builtIn) := by
  constructor
  · intro world root fewer more proper isFewer usable
    exact coveredBy_of_globs root proper isFewer usable
  · intro before after root contract further excludes recontracted apart excess
    exact coveredBy_of_languages recontracted rfl apart excess

/-- In a run that is covered, what a rule finds on the judged files is found in the other one. -/
theorem sublist_of_coveredBy {other : World} {otherContract : Contract} {rule : Rule}
    {judge : Contract → SourceFile → List Violation}
    (loads : (world.loadContract root).contract = some contract)
    (otherLoads : (other.loadContract root).contract = some otherContract)
    (usable : ∀ glob ∈ excludes, Glob.isUsable glob = true)
    (selected : rule ∈ RuleTable.builtIn.select contract) (judges : rule.Judges judge)
    (covered : (world.validate root excludes .builtIn).CoveredBy
      (other.validate root excludes .builtIn)) :
    ((world.judgedSources root contract excludes).flatMap (judge contract)).Sublist
      ((other.judgedSources root otherContract excludes).flatMap (judge otherContract)) := by
  obtain ⟨record, isRecord, isNamed, -, holds⟩ := record_of_judges loads usable selected judges
  obtain ⟨kept, isKept, sameId, isFound⟩ := covered record isRecord
  have keptHolds := violations_of_judges otherLoads usable
    (RuleTable.mem_rules_of_mem_select selected) judges isKept (sameId.trans isNamed)
  rwa [holds, keptHolds] at isFound

/-- In particular what is found in the roles of the judged files. -/
theorem sublist_roles_of_coveredBy {other : Contract}
    (recontracted : before.Recontracted after root contract other)
    (usable : ∀ glob ∈ excludes, Glob.isUsable glob = true)
    (covered : (before.validate root excludes .builtIn).CoveredBy
      (after.validate root excludes .builtIn)) :
    ((before.judgedSources root contract excludes).flatMap (Rule.judgeRoles contract)).Sublist
      ((after.judgedSources root other excludes).flatMap (Rule.judgeRoles other)) := by
  have isRule : _ ∈ RuleTable.builtIn.universal := List.mem_of_getElem? (i := 2) rfl
  exact sublist_of_coveredBy recontracted.loads recontracted.otherLoads usable
    (List.mem_append_left _ isRule) (Rule.judges_roles "File role declarations" .error) covered

/-! ## Contracts that declare more -/

/-- A strict contract for scripts that declares some further languages. -/
def furtherContract (further : List String) : Contract :=
  .minimal ("javascript" :: further) .strict

/-- A world in which a file holds that contract. -/
def declaring (worldWith : List UInt8 → World) (further : List String) : World :=
  worldWith (Text.Utf8.encode (furtherContract further).render.toList)

/-- More languages can be declared where a file holds the contract. -/
theorem recontracted_declaring {worldWith : List UInt8 → World} {there : List Name}
    (holds : HoldsContract worldWith root there) (first second : List String) :
    (declaring worldWith first).Recontracted (declaring worldWith (first ++ second)) root
      (furtherContract first)
      { furtherContract first with languages := (furtherContract first).languages ++ second } :=
  holds.recontracted (Contract.loads_minimal (List.cons_ne_nil _ _) .strict _)
    (Contract.loads_minimal (List.cons_ne_nil _ _) .strict _)

/-- A project with two scripts, of which one is vendored, and a typed one. -/
def threeSources (contract : List UInt8) : World :=
  ⟨.ofEntries [(contractFile, .file contract), (readmeFile, .ofText "Guide"),
    ("a.js", .ofText "let x = 1;\n"), ("b.ts", .ofText "let y = 2;\n"),
    ("vendor", .ofEntries [("c.js", .ofText "let z = 3;\n")])], []⟩

theorem holdsContract_threeSources :
    HoldsContract threeSources ⟨[Path.dot]⟩ [(Path.ofString contractFile).bytes] where
  proper _ := rfl
  follows _ := by cbv
  creates _ := by cbv
  isFile _ := rfl
  put _ _ := rfl

/-- Vendored files that are judged, and typed ones, hide nothing. -/
theorem validate_coveredBy_threeSources :
    ((declaring threeSources []).validate ⟨[Path.dot]⟩ ["vendor"] .builtIn).CoveredBy
      ((declaring threeSources []).validate ⟨[Path.dot]⟩ [] .builtIn) ∧
    ((declaring threeSources []).validate ⟨[Path.dot]⟩ [] .builtIn).CoveredBy
      ((declaring threeSources ["typescript"]).validate ⟨[Path.dot]⟩ [] .builtIn) := by
  have recontracted : (declaring threeSources []).Recontracted
      (declaring threeSources ["typescript"]) ⟨[Path.dot]⟩ _ _ :=
    recontracted_declaring holdsContract_threeSources [] ["typescript"]
  have opens : (declaring threeSources []).OpensTo ⟨[Path.dot]⟩ _ :=
    follow_of_node (node_here _ rfl)
  have sameWords := recontracted.rewritten.readmeWords_eq opens rfl fun target => nofun
  constructor
  · exact validate_coveredBy.1 _ _ [] ["vendor"] recontracted.proper (List.forall_mem_nil _)
      (by decide +kernel)
  · refine validate_coveredBy.2 _ _ _ _ _ _ recontracted
      (contractApart_of_file recontracted.proper opens rfl _ _) fun words excess => ?_
    rw [excessWords, sameWords]
    exact excess

/-! ## Contracts behind links -/

/-- A project whose contract is also a script. -/
def contractScript (contract : List UInt8) : World :=
  ⟨.ofEntries [(contractFile, .link (Path.ofString "a.js")), ("a.js", .file contract)], []⟩

/-- A project whose contract is also its README. -/
def contractReadme (contract : List UInt8) : World :=
  ⟨.ofEntries [(contractFile, .file contract), (readmeFile, .link (Path.ofString contractFile))],
    []⟩

theorem holdsContract_contractScript :
    HoldsContract contractScript ⟨[Path.dot]⟩ [(Path.ofString "a.js").bytes] where
  proper _ := rfl
  follows _ := by cbv
  creates _ := by cbv
  isFile _ := rfl
  put _ _ := rfl

theorem holdsContract_contractReadme :
    HoldsContract contractReadme ⟨[Path.dot]⟩ [(Path.ofString contractFile).bytes] where
  proper _ := rfl
  follows _ := by cbv
  creates _ := by cbv
  isFile _ := rfl
  put _ _ := rfl

/-- Languages that read as a comment with a role in it. -/
def disguise : List String :=
  ["/*", "@aocs-role: util"]

/-- As many languages as a README may have words. -/
def crowd : List String :=
  List.replicate 200 "a"

/-- The script that is the contract lacks a role, unless a language looks like one. -/
theorem not_coveredBy_contractScript :
    ¬((declaring contractScript []).validate ⟨[Path.dot]⟩ [] .builtIn).CoveredBy
      ((declaring contractScript disguise).validate ⟨[Path.dot]⟩ [] .builtIn) := by
  intro covered
  have recontracted : (declaring contractScript []).Recontracted
      (declaring contractScript disguise) ⟨[Path.dot]⟩ _ _ :=
    recontracted_declaring holdsContract_contractScript [] disguise
  have kept := sublist_roles_of_coveredBy recontracted (List.forall_mem_nil _) covered
  rw [judgedSources_of_node _ (List.forall_mem_nil _) (by decide +kernel) (node_here _ rfl),
    judgedSources_of_node _ (List.forall_mem_nil _) (by decide +kernel) (node_here _ rfl)] at kept
  revert kept
  decide +kernel

/-- The words of such a README are those of the contract. -/
theorem readmeWords_contractReadme (further : List String) :
    (declaring contractReadme further).readmeWords ⟨[Path.dot]⟩ =
      some (Text.wordCount ((furtherContract further).toOutput.renderAt 0)) := by
  have located (contract : List UInt8) : (contractReadme contract).locate .follow
      (Path.join ⟨[Path.dot]⟩ (Path.ofString readmeFile)) =
        .ok [(Path.ofString contractFile).bytes] := by
    cbv
  have reads : (declaring contractReadme further).readLossy
      (Path.join ⟨[Path.dot]⟩ (Path.ofString readmeFile)) =
        .ok (furtherContract further).render.toList := by
    rw [readLossy, declaring, read_of_locate (located _) rfl]
    exact congrArg Except.ok (Text.Utf8.decodeLossy_encode _)
  rw [readmeWords, reads, Contract.render, Json.Output.render, String.toList_ofList]
  rfl

/-- The README that is the contract gets longer with each language. -/
theorem not_coveredBy_contractReadme :
    ¬((declaring contractReadme crowd).validate ⟨[Path.dot]⟩ [] .builtIn).CoveredBy
      ((declaring contractReadme (crowd ++ ["b"])).validate ⟨[Path.dot]⟩ [] .builtIn) := by
  intro covered
  have recontracted := recontracted_declaring holdsContract_contractReadme crowd ["b"]
  have words : (declaring contractReadme crowd).excessWords ⟨[Path.dot]⟩ = some 210 := by
    rw [excessWords, readmeWords_contractReadme]
    decide +kernel
  have moreWords : (declaring contractReadme (crowd ++ ["b"])).excessWords ⟨[Path.dot]⟩ =
      some 211 := by
    rw [excessWords, readmeWords_contractReadme]
    decide +kernel
  obtain ⟨record, isRecord, isNamed, holds⟩ :=
    record_of_excess recontracted.loads (List.forall_mem_nil _) words
  obtain ⟨other, isOther, sameId, isKept⟩ := covered record isRecord
  obtain ⟨count, isCount, otherHolds⟩ := violations_of_excess recontracted.otherLoads
    (List.forall_mem_nil _) isOther (sameId.trans isNamed)
  cases moreWords.symm.trans isCount
  rw [holds, otherHolds] at isKept
  revert isKept
  decide +kernel

/-- **Behind a link the contract hides what is found in it.** In the first project a script is also
the contract, and the languages that are added give it a role; in the second one the README is also
the contract, and gets another length. -/
theorem not_coveredBy_of_links :
    ((declaring contractScript []).Recontracted (declaring contractScript disguise)
        ⟨[Path.dot]⟩ (furtherContract [])
        { furtherContract [] with languages := (furtherContract []).languages ++ disguise } ∧
      ¬((declaring contractScript []).validate ⟨[Path.dot]⟩ [] .builtIn).CoveredBy
        ((declaring contractScript disguise).validate ⟨[Path.dot]⟩ [] .builtIn)) ∧
    (declaring contractReadme crowd).Recontracted (declaring contractReadme (crowd ++ ["b"]))
        ⟨[Path.dot]⟩ (furtherContract crowd)
        { furtherContract crowd with languages := (furtherContract crowd).languages ++ ["b"] } ∧
      ¬((declaring contractReadme crowd).validate ⟨[Path.dot]⟩ [] .builtIn).CoveredBy
        ((declaring contractReadme (crowd ++ ["b"])).validate ⟨[Path.dot]⟩ [] .builtIn) :=
  ⟨⟨recontracted_declaring holdsContract_contractScript [] disguise,
      not_coveredBy_contractScript⟩,
    recontracted_declaring holdsContract_contractReadme crowd ["b"],
    not_coveredBy_contractReadme⟩

end World

end RepoContract
