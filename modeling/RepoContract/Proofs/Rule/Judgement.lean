/-
# RepoContract.Proofs.Rule.Judgement: how a rule depends on the contract

A built-in rule that judges files says of a file what the patterns, roles and policies of the
contract ask for, and nothing of the languages that the contract declares. Its mode matters in two
places only, and there a strict contract says what a lite one says and then something more
(`SourceFile.strictFindings`). The rules on the contract pass wherever a contract loads, and the
one on the README is told by the number of its words (`Rule.checkReadme_eq`).

So each built-in rule is of one of three kinds (`Rule.judgement_of_mem`), and what two runs have in
common is shown for each of the kinds instead of for each of the rules.
-/
import RepoContract.Proofs.Contract.Acceptance
import RepoContract.Proofs.Rule.Scope
import RepoContract.Proofs.Run.Quiet
import RepoContract.Proofs.Source
import RepoContract.Proofs.Text.Utf8

namespace RepoContract

set_option autoImplicit false

/-! ## Documents -/

namespace World

variable {world : World} {root : Path} {contract : Contract}

/-- How many words the README has; none when it cannot be read. -/
def readmeWords (world : World) (root : Path) : Option Nat :=
  (world.readLossy (root.join (Path.ofString readmeFile))).toOption.map Text.wordCount

/-- How many words the README has, if these are too many. -/
def excessWords (world : World) (root : Path) : Option Nat :=
  (world.readmeWords root).filter (Rule.readmeWordLimit < ·)

/-- There are words to be counted where the README is a file. -/
theorem isSome_readmeWords (world : World) (root : Path) :
    (world.readmeWords root).isSome = world.isFile (root.join (Path.ofString readmeFile)) := by
  rw [readmeWords, readLossy, isFile_eq_isOk]
  cases world.read (root.join (Path.ofString readmeFile)) <;> rfl

/-- A contract that loads is that of a file which is text. -/
theorem exists_text_of_loads (loads : (world.loadContract root).contract = some contract) :
    ∃ bytes text, world.read (contractPath root) = .ok bytes ∧
      Text.Utf8.decode? bytes = some text ∧
      (Loaded.ofText (contractPath root) text).contract = some contract := by
  rw [loadContract, isFile_eq_isOk, readText] at loads
  cases reads : world.read (contractPath root) with
  | error cause => simp [reads, Loaded.ofProject, Except.isOk, Except.toBool] at loads
  | ok bytes =>
      cases decodes : Text.Utf8.decode? bytes with
      | none =>
          simp [reads, decodes, Loaded.ofProject, Except.isOk, Except.toBool, bind, Except.bind,
            throw, throwThe, MonadExceptOf.throw] at loads
      | some text =>
          simp only [reads, decodes, bind, Except.bind, pure, Except.pure] at loads
          exact ⟨bytes, text, rfl, decodes, loads⟩

end World

/-- A project with the built-in languages and the contract that is loaded from it. -/
structure Project.IsLoaded (project : Project) : Prop where
  table : project.languages = .builtIn
  loads : (project.world.loadContract project.root).contract = some project.contract

namespace Rule

/-- What the rule on the schema says of some problems. -/
def schemaFindings (problems : List LoadProblem) : List Violation :=
  problems.map fun problem => .inFile (Path.ofString contractFile) problem.message

/-- The rule on the schema says what is wrong with the file as the lenient reader reads it. -/
theorem checkContractSchema_of_read {project : Project} {bytes : List UInt8}
    (reads : project.world.read (contractPath project.root) = .ok bytes) :
    checkContractSchema project = .found (schemaFindings
      (Loaded.ofText (contractPath project.root) (Text.Utf8.decodeLossy bytes)).problems) := by
  have isThere : project.world.isFile (project.under contractFile) = true := by
    rw [World.isFile_eq_isOk]
    exact congrArg Except.isOk reads
  have isRead : project.world.readLossy (project.under contractFile) =
      .ok (Text.Utf8.decodeLossy bytes) :=
    congrArg (Except.map Text.Utf8.decodeLossy) reads
  rw [checkContractSchema]
  simp only [if_pos isThere, Project.readLossy, isRead, Except.mapError]
  rfl

/-- The rules on the contract find nothing where one loads. -/
theorem passes_of_loads {project : Project} {contract : Contract}
    (loads : (project.world.loadContract project.root).contract = some contract) :
    checkContractPresent project = .found [] ∧ checkContractSchema project = .found [] := by
  obtain ⟨bytes, text, reads, decodes, isText⟩ := World.exists_text_of_loads loads
  constructor
  · have isThere : project.world.isFile (project.under contractFile) = true := by
      rw [World.isFile_eq_isOk]
      exact congrArg Except.isOk reads
    rw [checkContractPresent, if_pos isThere]
    rfl
  · rw [checkContractSchema_of_read reads, Text.Utf8.decodeLossy_of_decode? decodes,
      Loaded.problems_of_ofText isText]
    rfl

/-- The rule on the README is told by the number of words, if there are any to be counted. -/
theorem checkReadme_eq (project : Project) :
    checkReadme project =
      match project.world.readmeWords project.root with
      | some words => .completed ⟨[], lengthWarnings words⟩
      | none => .found [.general ("missing " ++ readmeFile ++ " at the project root")] := by
  simp only [checkReadme, Project.under, World.isFile_eq_isOk, Project.readLossy,
    World.readmeWords, World.readLossy]
  cases project.world.read (project.root.join (Path.ofString readmeFile)) with
  | error cause => rfl
  | ok bytes =>
      simp only [Except.isOk, Except.toBool, if_true, Except.map, Except.mapError,
        Except.toOption, Option.map_some, lengthWarnings]
      split <;> rfl

/-- The record of the rule on the README says whether there is one, and the further record how many
words it has, if these are too many. -/
theorem records_of_readme {rule : Rule} (isNamed : rule.id = "agent-readme")
    (isCheck : rule.check = checkReadme) (project : Project) :
    (rule.execute project).records =
      ⟨rule.id, rule.name, rule.severity,
        if (project.world.readmeWords project.root).isSome then []
        else [.general ("missing " ++ readmeFile ++ " at the project root")]⟩ ::
      (project.world.excessWords project.root).toList.flatMap rule.lengthRecords := by
  have checked : rule.check project = _ := isCheck ▸ checkReadme_eq project
  rw [World.excessWords]
  cases counted : project.world.readmeWords project.root with
  | none =>
      rw [counted] at checked
      exact records_of_found checked
  | some words =>
      rw [counted] at checked
      have quiet : rule.IsQuiet project words := by
        rw [IsQuiet, if_pos isNamed]
        exact checked
      rw [quiet.records_eq, if_pos isNamed, clearRecord, Option.filter_some]
      by_cases isLong : readmeWordLimit < words <;> simp [isLong, lengthRecords]

end Rule

/-! ## Files -/

namespace SourceFile

/-- What a strict contract has against a file that a lite one has not, by the id of the rule: that
no role is declared, and that something is exported and no module is named. -/
def strictFindings (source : SourceFile) (id : String) : List Violation :=
  if id = "file-roles" then
    if source.hasHint "role" then []
    else [.atLine source.path 1 "missing @aocs-role declaration"]
  else if id = "module-manifest" then Rule.judgeExports Pattern.compile source
  else []

end SourceFile

namespace Rule

/-- A built-in rule that judges files, and what it says of each. -/
structure Judges (rule : Rule) (judge : Contract → SourceFile → List Violation) : Prop where
  check : ∀ project : Project, project.languages = .builtIn →
    rule.check project = .found (project.sources.flatMap (judge project.contract))
  /-- The declared languages do not matter. -/
  undeclared : ∀ (contract : Contract) (languages : List String) (source : SourceFile),
    judge { contract with languages } source = judge contract source
  /-- A strict contract says more in the end. -/
  stricter : ∀ (contract : Contract) (source : SourceFile), contract.mode = .lite →
    judge { contract with mode := .strict } source =
      judge contract source ++ source.strictFindings rule.id

theorem judgeRoles_strict {contract : Contract} (isLite : contract.mode = .lite)
    (source : SourceFile) :
    judgeRoles { contract with mode := .strict } source =
      judgeRoles contract source ++ source.strictFindings "file-roles" := by
  rw [judgeRoles, judgeRoles, SourceFile.strictFindings, if_pos rfl]
  cases declared : source.valuesOf "role" with
  | nil =>
      rw [SourceFile.valuesOf_eq_nil_iff.1 declared, declaredRoles, declaredRoles, isLite]
      rfl
  | cons first more =>
      have isHinted : source.hasHint "role" = true := by
        rw [← Bool.not_eq_false, ← SourceFile.valuesOf_eq_nil_iff, declared]
        exact List.cons_ne_nil _ _
      rw [isHinted, if_pos rfl, List.append_nil]
      rfl

theorem judgeStrictly_strict {contract : Contract} (isLite : contract.mode = .lite)
    (source : SourceFile) :
    judgeStrictly Pattern.compile { contract with mode := .strict } source =
      judgeStrictly Pattern.compile contract source ++
        source.strictFindings "module-manifest" := by
  rw [judgeStrictly, judgeStrictly, isLite]
  rfl

/-- A rule that the mode of a contract does not concern. -/
theorem Judges.of_modeless {rule : Rule} {judge : Contract → SourceFile → List Violation}
    (check : ∀ project : Project,
      rule.check project = .found (project.sources.flatMap (judge project.contract)))
    (undeclared : ∀ (contract : Contract) (languages : List String) (source : SourceFile),
      judge { contract with languages } source = judge contract source)
    (modeless : ∀ (contract : Contract) (mode : Mode) (source : SourceFile),
      judge { contract with mode } source = judge contract source)
    (isNamed : rule.id ≠ "file-roles" ∧ rule.id ≠ "module-manifest") : rule.Judges judge where
  check project _ := check project
  undeclared := undeclared
  stricter contract source _ := by
    rw [modeless, SourceFile.strictFindings, if_neg isNamed.1, if_neg isNamed.2, List.append_nil]

theorem judges_roles (name : String) (severity : Severity) :
    Judges ⟨"file-roles", name, severity, perFile judgeRoles⟩ judgeRoles where
  check _ _ := rfl
  undeclared _ _ _ := rfl
  stricter _ source isLite := judgeRoles_strict isLite source

theorem judges_forbidden (name : String) (severity : Severity) :
    Judges ⟨"forbidden-patterns", name, severity, checkForbidden⟩ judgeForbidden :=
  .of_modeless checkForbidden_eq (fun _ _ _ => rfl) (fun _ _ _ => rfl)
    ⟨(by decide : "forbidden-patterns" ≠ "file-roles"),
      (by decide : "forbidden-patterns" ≠ "module-manifest")⟩

theorem judges_manifests (name : String) (severity : Severity) :
    Judges ⟨"module-manifest", name, severity, checkManifests Pattern.compile⟩
      (judgeStrictly Pattern.compile) where
  check project isTable := checkManifests_eq (by
    rw [isTable]
    exact LanguageTable.rememberable_builtIn)
  undeclared _ _ _ := rfl
  stricter _ source isLite := judgeStrictly_strict isLite source

/-- No companion is asked for by the mode of a contract or by the languages that it declares. -/
theorem isAsked_of_mem : ∀ named ∈ RuleTable.companions,
    ∀ (contract : Contract) (mode : Mode) (languages : List String),
      named.2.2.isAsked { contract with mode, languages } = named.2.2.isAsked contract := by
  simp only [RuleTable.companions, List.forall_mem_cons]
  exact ⟨fun _ _ _ => rfl, fun _ _ _ => rfl, fun _ _ _ => rfl, fun _ _ _ => rfl,
    fun _ _ _ => rfl, List.forall_mem_nil _⟩

theorem judges_companion {id language : String} {companion : Companion}
    (isNamed : (id, language, companion) ∈ RuleTable.companions) (name : String)
    (severity : Severity) :
    Judges ⟨id, name, severity, checkCompanion language companion⟩
      (judgeAsked language companion) := by
  have apart : ∀ named ∈ RuleTable.companions,
      named.1 ≠ "file-roles" ∧ named.1 ≠ "module-manifest" := by
    decide
  have isAsked := isAsked_of_mem _ isNamed
  refine .of_modeless (checkCompanion_eq language companion) ?_ ?_ (apart _ isNamed)
  · intro contract languages source
    rw [judgeAsked, judgeAsked, ← isAsked contract contract.mode languages]
  · intro contract mode source
    rw [judgeAsked, judgeAsked, ← isAsked contract mode contract.languages]

/-- What a built-in rule says, by its kind. -/
inductive Judgement (rule : Rule) : Prop
  | files (isNamed : rule.id ∉ documentIds) {judge : Contract → SourceFile → List Violation}
      (judges : rule.Judges judge)
  | contract (isNamed : rule.id = "contract-present" ∨ rule.id = "contract-schema")
      (passes : ∀ (project : Project) (contract : Contract),
        (project.world.loadContract project.root).contract = some contract →
          rule.check project = .found [])
  | readme (isNamed : rule.id = "agent-readme") (isCheck : rule.check = checkReadme)

/-- **Every built-in rule is of one of the three kinds.** -/
theorem judgement_of_mem {rule : Rule} (isRule : rule ∈ RuleTable.builtIn.rules) :
    rule.Judgement := by
  have noDocument : ∀ named ∈ RuleTable.companions, named.1 ∉ documentIds := by decide
  cases RuleTable.builtIn_of_mem isRule with
  | contractPresent => exact .contract (.inl rfl) fun _ _ loads => (passes_of_loads loads).1
  | contractSchema => exact .contract (.inr rfl) fun _ _ loads => (passes_of_loads loads).2
  | roles => exact .files (by decide) (judges_roles _ _)
  | hints =>
      exact .files (by decide)
        (.of_modeless (fun _ => rfl) (fun _ _ _ => rfl) (fun _ _ _ => rfl) (by decide))
  | forbidden => exact .files (by decide) (judges_forbidden _ _)
  | manifests => exact .files (by decide) (judges_manifests _ _)
  | readme => exact .readme rfl rfl
  | companion isNamed => exact .files (noDocument _ isNamed) (judges_companion isNamed _ _)

end Rule

end RepoContract
