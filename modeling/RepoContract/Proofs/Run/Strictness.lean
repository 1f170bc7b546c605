/-
# RepoContract.Proofs.Run.Strictness: strict mode only adds

A strict contract asks for roles and for manifests where a lite one does not. All that it adds is
said of a file behind what the lite one says of it (`SourceFile.strictFindings`), so a strict run
has the records of the lite run in the same order, and in each of them what the lite run finds, with
the findings of strict mode between (`Record.Hardens`).

The mode stands in the contract's file, and a judged file may be that file through a link; then
strict mode may take something away as well (`World.not_coveredBy_of_mode`). Where no judged file
is, and the README keeps its excess of words, strict mode only adds (`World.validate_hardens`).
-/
import Mathlib.Data.List.Perm.Basic
import RepoContract.Proofs.Run.Coverage
import RepoContract.Proofs.Run.Order

namespace RepoContract

set_option autoImplicit false

/-! ## Records of both modes -/

/-- Without a rule that asks for more, strict mode has nothing against a file. -/
theorem SourceFile.strictFindings_eq_nil {id : String}
    (modeless : id ≠ "file-roles" ∧ id ≠ "module-manifest") (source : SourceFile) :
    source.strictFindings id = [] := by
  rw [strictFindings, if_neg modeless.1, if_neg modeless.2]

/-- A record of a strict run against that of the lite run on the same files: what is found there is
kept in its order, and the findings of strict mode on the files are added, and nothing else. -/
structure Record.Hardens (sources : List SourceFile) (lite strict : Record) : Prop where
  id : strict.id = lite.id
  name : strict.name = lite.name
  severity : strict.severity = lite.severity
  kept : lite.violations.Sublist strict.violations
  added : strict.violations.Perm
    (lite.violations ++ sources.flatMap fun source => source.strictFindings lite.id)

/-- A record that the mode does not concern stays as it is. -/
theorem Record.Hardens.of_modeless {record : Record}
    (modeless : record.id ≠ "file-roles" ∧ record.id ≠ "module-manifest")
    (sources : List SourceFile) : record.Hardens sources record := by
  have nothing : (sources.flatMap fun source => source.strictFindings record.id) = [] := by
    rw [List.flatMap_eq_nil_iff]
    intro source _
    exact SourceFile.strictFindings_eq_nil modeless source
  refine ⟨rfl, rfl, rfl, List.Sublist.refl _, ?_⟩
  rw [nothing, List.append_nil]

/-! ## Rules in both modes -/

/-- A project with a lite contract, and one with a strict contract that is the same otherwise: they
have the same source files, and as long a README if it is too long. -/
structure Project.Hardened (first second : Project) : Prop where
  isLoaded : first.IsLoaded
  strictIsLoaded : second.IsLoaded
  isLite : first.contract.mode = .lite
  contract : second.contract = { first.contract with mode := .strict }
  sources : second.sources = first.sources
  readme : (second.world.readmeWords second.root).isSome =
    (first.world.readmeWords first.root).isSome
  excess : second.world.excessWords second.root = first.world.excessWords first.root

/-- **What a built-in rule reports is hardened by strict mode.** -/
theorem Rule.hardens_execute {rule : Rule} {first second : Project}
    (isRule : rule ∈ RuleTable.builtIn.rules) (hardened : first.Hardened second) :
    List.Forall₂ (Record.Hardens first.sources) (rule.execute first).records
      (rule.execute second).records := by
  cases judgement_of_mem isRule with
  | files _ judges =>
      rename_i judge
      have strictly (source : SourceFile) : judge second.contract source =
          judge first.contract source ++ source.strictFindings rule.id := by
        rw [hardened.contract]
        exact judges.stricter _ _ hardened.isLite
      rw [records_of_found (judges.check first hardened.isLoaded.table),
        records_of_found (judges.check second hardened.strictIsLoaded.table), hardened.sources,
        funext strictly]
      refine .cons ⟨rfl, rfl, rfl, ?_, ?_⟩ .nil
      · exact List.Sublist.flatMap_right _ fun source _ => List.sublist_append_left _ _
      · exact (List.flatMap_append_perm _ _ _).symm
  | contract isNamed passes =>
      have modeless : rule.id ≠ "file-roles" ∧ rule.id ≠ "module-manifest" := by
        rcases isNamed with isNamed | isNamed <;> rw [isNamed] <;> decide
      rw [records_of_found (passes first _ hardened.isLoaded.loads),
        records_of_found (passes second _ hardened.strictIsLoaded.loads)]
      exact .cons (.of_modeless modeless _) .nil
  | readme isNamed isCheck =>
      have sameRecords : (rule.execute second).records = (rule.execute first).records := by
        rw [records_of_readme isNamed isCheck, records_of_readme isNamed isCheck, hardened.readme,
          hardened.excess]
      rw [sameRecords]
      refine List.forall₂_same.2 fun record isRecord => .of_modeless ?_ _
      rcases id_of_mem_records isRecord with isOwn | isFurther
      · rw [isOwn, isNamed]
        decide
      · rw [isFurther, isNamed]
        decide

namespace World

variable {before after : World} {root : Path} {lite strict : Contract} {excludes : List String}

/-! ## Runs in both modes -/

/-- **Strict mode only adds.** Of two trees that are the same but for the file with the contract,
which is lite in one and strict in the other and the same otherwise, a run reports the same records
in the same order. What the lite run finds is found by the strict run in the same order, and what is
found beyond that are the findings of strict mode on the judged files. The file with the contract
must not be judged under another name, and the README must keep its excess of words. -/
theorem validate_hardens (isLite : lite.mode = .lite)
    (recontracted : before.Recontracted after root lite strict)
    (hardened : strict = { lite with mode := .strict })
    (apart : before.ContractApart root lite.languages excludes)
    (excess : after.excessWords root = before.excessWords root) :
    List.Forall₂ (Record.Hardens (before.judgedSources root lite excludes))
      (before.validate root excludes .builtIn).records
      (after.validate root excludes .builtIn).records := by
  have rewritten := recontracted.rewritten
  have sameLanguages : strict.languages = lite.languages := by rw [hardened]
  have sameRules : RuleTable.builtIn.select strict = RuleTable.builtIn.select lite := by
    rw [hardened]
    rfl
  have sameScan : after.scan root .builtIn strict.languages excludes =
      before.scan root .builtIn lite.languages excludes := by
    rw [sameLanguages, rewritten.scan_eq]
  cases lists : before.scan root .builtIn lite.languages excludes with
  | error fault =>
      rw [lists] at sameScan
      rw [validate_of_error before root excludes _ recontracted.loads lists,
        validate_of_error after root excludes _ recontracted.otherLoads sameScan]
      have modeless : (scanRecord fault).id ≠ "file-roles" ∧
          (scanRecord fault).id ≠ "module-manifest" :=
        (by decide : "scan" ≠ "file-roles" ∧ "scan" ≠ "module-manifest")
      exact .cons (.of_modeless modeless _) .nil
  | ok files =>
      rw [lists] at sameScan
      rw [validate_of_ok before root excludes _ recontracted.loads lists,
        validate_of_ok after root excludes _ recontracted.otherLoads sameScan, sameRules,
        Summary.ofRecords_eq, Summary.ofRecords_eq, judgedSources, lists]
      dsimp only
      refine forall₂_flatMap fun rule selected => ?_
      refine Rule.hardens_execute (RuleTable.mem_rules_of_mem_select selected)
        ⟨⟨rfl, recontracted.loads⟩, ⟨rfl, recontracted.otherLoads⟩, isLite, hardened, ?_,
          rewritten.isSome_readmeWords root, excess⟩
      exact rewritten.sources_eq apart lists strict

/-! ## A contract that reads as a comment -/

/-- The text of a contract that reads as a comment with a role in it, and the mode in the role. -/
def commentText (mode : Mode) : List Char :=
  "\x7b\"version\":\"/*\",\n\"languages\":[\"javascript\",\"@aocs-role:\"],\"mode\":\"".toList ++
    ((Spelled.spelling mode).toList ++ "\"\x7d".toList)

/-- The contract of that text. -/
def commentContract (mode : Mode) : Contract :=
  { version := "/*", languages := ["javascript", "@aocs-role:"], mode }

/-- Where a file holds that contract, its mode can be written over. -/
theorem recontracted_comment {worldWith : List UInt8 → World} {there : List Name}
    (holds : HoldsContract worldWith ⟨[Path.dot]⟩ there) :
    (worldWith (Text.Utf8.encode (commentText .lite))).Recontracted
      (worldWith (Text.Utf8.encode (commentText .strict))) ⟨[Path.dot]⟩ (commentContract .lite)
      { commentContract .lite with mode := .strict } := by
  have loads (mode : Mode) : (Loaded.ofText (contractPath ⟨[Path.dot]⟩)
      (commentText mode)).contract = some (commentContract mode) := by
    cases mode <;> decide +kernel
  exact holds.recontracted (loads .lite) (loads .strict)

/-- A project with two scripts whose README is also its contract. -/
def twoScripts (contract : List UInt8) : World :=
  ⟨.ofEntries [(contractFile, .file contract), (readmeFile, .link (Path.ofString contractFile)),
    ("a.js", .ofText "let x = 1;\n"), ("lib", .ofEntries [("b.js", .ofText "let y = 2;\n")])], []⟩

theorem holdsContract_twoScripts :
    HoldsContract twoScripts ⟨[Path.dot]⟩ [(Path.ofString contractFile).bytes] where
  proper _ := rfl
  follows _ := by cbv
  creates _ := by cbv
  isFile _ := rfl
  put _ _ := rfl

/-- Strict mode misses the roles of two scripts. -/
theorem validate_hardens_twoScripts :
    List.Forall₂
      (Record.Hardens ((twoScripts (Text.Utf8.encode (commentText .lite))).judgedSources
        ⟨[Path.dot]⟩ (commentContract .lite) []))
      ((twoScripts (Text.Utf8.encode (commentText .lite))).validate ⟨[Path.dot]⟩ []
        .builtIn).records
      ((twoScripts (Text.Utf8.encode (commentText .strict))).validate ⟨[Path.dot]⟩ []
        .builtIn).records ∧
    ((twoScripts (Text.Utf8.encode (commentText .lite))).judgedSources ⟨[Path.dot]⟩
      (commentContract .lite) []).flatMap (fun source => source.strictFindings "file-roles") =
      [.atLine (Path.ofString "a.js") 1 "missing @aocs-role declaration",
        .atLine (Path.ofString "lib/b.js") 1 "missing @aocs-role declaration"] := by
  have recontracted := recontracted_comment holdsContract_twoScripts
  have leads : (twoScripts (Text.Utf8.encode (commentText .lite))).node ⟨[Path.dot]⟩ = .ok _ :=
    node_here _ rfl
  have opens : (twoScripts (Text.Utf8.encode (commentText .lite))).OpensTo ⟨[Path.dot]⟩ _ :=
    follow_of_node leads
  have reads (bytes : List UInt8) :
      (twoScripts bytes).read (contractPath ⟨[Path.dot]⟩) = .ok bytes :=
    read_of_locate (holdsContract_twoScripts.follows bytes) rfl
  constructor
  · exact validate_hardens rfl recontracted rfl
      (contractApart_of_file recontracted.proper opens rfl _ _)
      (recontracted.excessWords_eq_of_spelling (reads _) (reads _))
  · rw [judgedSources_of_node _ (List.forall_mem_nil _) (by decide +kernel) leads]
    decide +kernel

/-- **Strict mode takes away what is said of the lite contract itself**: the contract is also a
script, and its mode is part of a role in it. -/
theorem not_coveredBy_of_mode :
    (contractScript (Text.Utf8.encode (commentText .lite))).Recontracted
      (contractScript (Text.Utf8.encode (commentText .strict))) ⟨[Path.dot]⟩
      (commentContract .lite) { commentContract .lite with mode := .strict } ∧
    ¬((contractScript (Text.Utf8.encode (commentText .lite))).validate ⟨[Path.dot]⟩ []
        .builtIn).CoveredBy
      ((contractScript (Text.Utf8.encode (commentText .strict))).validate ⟨[Path.dot]⟩ []
        .builtIn) := by
  have recontracted := recontracted_comment holdsContract_contractScript
  refine ⟨recontracted, fun covered => ?_⟩
  have kept := sublist_roles_of_coveredBy recontracted (List.forall_mem_nil _) covered
  rw [judgedSources_of_node _ (List.forall_mem_nil _) (by decide +kernel) (node_here _ rfl),
    judgedSources_of_node _ (List.forall_mem_nil _) (by decide +kernel) (node_here _ rfl)] at kept
  revert kept
  decide +kernel

end World

end RepoContract
