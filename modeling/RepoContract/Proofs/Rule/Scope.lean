/-
# RepoContract.Proofs.Rule.Scope: what a rule looks at

A rule judges the source files of a project one by one, or it looks at a document below the root,
and no rule does both. A check of the first kind is a judgement of one file, made for every file in
the order listed (`JudgesFiles`), so it reads nothing but the listed files, and its violations on
files one behind the other are those on the first and then those on the second. One check seems to
escape this: it remembers the export patterns of the names it has met. What it remembers is what it
would compile again, as long as a name belongs to one language and every pattern compiles
(`manifestsFrom_eq`). A check of the second kind depends on what reading the documents gives
(`LooksAtDocuments`). That a file can be judged at all takes a language whose blocks do not open and
close with nothing (`Delimiters.track`).
-/
import Mathlib.Data.List.Nodup
import RepoContract.Proofs.Language.Table
import RepoContract.Proofs.Rule.Manifests
import RepoContract.Proofs.Rule.Table
import RepoContract.Proofs.Tree.Location
import RepoContract.Run

namespace RepoContract

set_option autoImplicit false

/-! ## Tables -/

namespace LanguageTable

/-- Whether the export patterns of a table can be remembered by name: no two languages have the
same name, and every pattern compiles. -/
structure Rememberable (compile : Pattern.Compiler) (table : LanguageTable) : Prop where
  distinct : (table.languages.map (·.name)).Nodup
  compiles : ∀ language ∈ table.languages, ∃ pattern, compile language.exportPattern = .ok pattern

theorem rememberable_builtIn : builtIn.Rememberable Pattern.compile where
  distinct := by decide +kernel
  compiles := by
    have all : ∀ language ∈ builtIn.languages,
        (Pattern.compile language.exportPattern).isOk = true := by
      decide +kernel
    intro language isKnown
    have isOk := all language isKnown
    cases compiled : Pattern.compile language.exportPattern with
    | error reason => simp [compiled, Except.isOk, Except.toBool] at isOk
    | ok pattern => exact ⟨pattern, rfl⟩

/-- Where the patterns of a table compile, none of its languages is refused. -/
theorem Rememberable.exportPattern_ok {compile : Pattern.Compiler} {table : LanguageTable}
    (rememberable : table.Rememberable compile) {language : Language}
    (isKnown : language ∈ table.languages) :
    ∃ pattern, Rule.exportPattern compile language = .ok pattern := by
  obtain ⟨pattern, compiled⟩ := rememberable.compiles language isKnown
  exact ⟨pattern, by rw [Rule.exportPattern, compiled]; rfl⟩

end LanguageTable

/-! ## Rules that judge files -/

namespace Project

variable {project : Project}

/-- The language of a source file is one of the project's. -/
theorem language_mem {source : SourceFile} (isSource : source ∈ project.sources) :
    source.language ∈ project.languages.languages := by
  obtain ⟨listed, -, opens⟩ := mem_sources_iff.1 isSource
  obtain ⟨extension, -, found⟩ := Option.bind_eq_some_iff.1 opens.classified
  exact LanguageTable.mem_of_at? found

/-- The project with other files listed. -/
def listing (project : Project) (paths : List Path) : Project :=
  { project with files := { project.files with files := paths } }

/-- The sources of files one behind the other. -/
theorem sources_listing_append (project : Project) (first second : List Path) :
    (project.listing (first ++ second)).sources =
      (project.listing first).sources ++ (project.listing second).sources :=
  List.filterMap_append

/-- A file whose extension is not known or which cannot be read is no source. -/
theorem source?_eq_none {path : Path}
    (hidden : SourceFile.classify? project.languages path = none ∨
      ∃ cause, project.world.readLossy path = .error cause) :
    project.source? path = none := by
  rcases hidden with unclassified | ⟨cause, unreadable⟩
  · rw [source?, unclassified]
    rfl
  · rw [source?, unreadable]
    cases SourceFile.classify? project.languages path <;> rfl

end Project

namespace Rule

/-- A check that judges each source file on its own, in projects with some languages. All that it
says of a file is said under the path of that file. -/
def JudgesFiles (languages : LanguageTable) (check : Project → Verdict) : Prop :=
  ∃ judge : Contract → SourceFile → List Violation,
    (∀ contract source, ∀ violation ∈ judge contract source,
      violation.file = some source.path) ∧
    ∀ project, project.languages = languages →
      check project = .found (project.sources.flatMap (judge project.contract))

variable {languages : LanguageTable}

/-- **What is found on files one behind the other** is what is found on the first and then what is
found on the second. -/
theorem JudgesFiles.append {check : Project → Verdict} {project : Project}
    (judges : JudgesFiles project.languages check) (first second : List Path) :
    ∃ firstFound secondFound, check (project.listing first) = .found firstFound ∧
      check (project.listing second) = .found secondFound ∧
      check (project.listing (first ++ second)) = .found (firstFound ++ secondFound) := by
  obtain ⟨judge, -, judged⟩ := judges
  refine ⟨_, _, judged (project.listing first) rfl, judged (project.listing second) rfl, ?_⟩
  rw [judged (project.listing (first ++ second)) rfl, Project.sources_listing_append,
    List.flatMap_append]
  rfl

/-- Nothing is found on a file that is no source. -/
theorem JudgesFiles.nothing {check : Project → Verdict} {project : Project} {path : Path}
    (judges : JudgesFiles project.languages check) (noSource : project.source? path = none) :
    check (project.listing [path]) = .found [] := by
  obtain ⟨judge, -, judged⟩ := judges
  have none : (project.listing [path]).sources = [] := by
    rw [Project.sources, List.filterMap_eq_nil_iff]
    intro other isOther
    rw [List.mem_singleton.1 isOther]
    exact noSource
  rw [judged (project.listing [path]) rfl, none, List.flatMap_nil]

theorem judgesFiles_perFile {judge : Contract → SourceFile → List Violation}
    (ownPath : ∀ contract source, ∀ violation ∈ judge contract source,
      violation.file = some source.path) : JudgesFiles languages (perFile judge) :=
  ⟨judge, ownPath, fun _ _ => rfl⟩

theorem file_of_mem_judgeRoles (contract : Contract) (source : SourceFile) :
    ∀ violation ∈ judgeRoles contract source, violation.file = some source.path := by
  intro violation isFound
  rw [judgeRoles] at isFound
  cases declared : source.valuesOf "role" with
  | nil =>
      rw [declared, declaredRoles] at isFound
      split at isFound
      · rw [List.mem_singleton.1 isFound]
        rfl
      · contradiction
  | cons first more =>
      obtain ⟨line, role⟩ := first
      rw [declared, declaredRoles] at isFound
      rcases List.mem_append.1 isFound with refused | conflict
      · obtain ⟨_, -, rfl⟩ := List.mem_map.1 refused
        rfl
      · obtain ⟨_, -, rfl⟩ := Option.map_eq_some_iff.1 (Option.mem_toList.1 conflict)
        rfl

theorem file_of_mem_judgeHints (contract : Contract) (source : SourceFile) :
    ∀ violation ∈ judgeHints contract source, violation.file = some source.path := by
  intro violation isFound
  obtain ⟨hint, -, isProblem⟩ := List.mem_filterMap.1 isFound
  obtain ⟨problem, -, rfl⟩ := Option.map_eq_some_iff.1 isProblem
  rfl

theorem file_of_mem_judgeForbidden (contract : Contract) (source : SourceFile) :
    ∀ violation ∈ judgeForbidden contract source, violation.file = some source.path := by
  intro violation isFound
  obtain ⟨⟨number, line⟩, -, inLine⟩ := List.mem_flatMap.1 isFound
  obtain ⟨entry, -, rfl⟩ := List.mem_map.1 inLine
  rfl

/-- The early end of a check that has nothing to look for is what it would come to anyway. -/
theorem checkForbidden_eq (project : Project) :
    checkForbidden project =
      .found (project.sources.flatMap (judgeForbidden project.contract)) := by
  rw [checkForbidden]
  split
  · next nothing =>
      have none (source : SourceFile) : judgeForbidden project.contract source = [] := by
        rw [judgeForbidden, List.isEmpty_iff.1 nothing, List.flatMap_eq_nil_iff]
        intro _ _
        rfl
      rw [List.flatMap_eq_nil_iff.2 fun source _ => none source]
      rfl
  · rfl

theorem judgesFiles_checkForbidden : JudgesFiles languages checkForbidden :=
  ⟨judgeForbidden, file_of_mem_judgeForbidden, fun project _ => checkForbidden_eq project⟩

theorem file_of_mem_judgeCompanion (companion : Companion) (source : SourceFile) :
    ∀ violation ∈ judgeCompanion companion source, violation.file = some source.path := by
  intro violation isFound
  rw [judgeCompanion] at isFound
  split at isFound
  · contradiction
  · split at isFound
    · contradiction
    · rw [List.mem_singleton.1 isFound]
      rfl

/-- What a companion comes to for one file, when it is asked for in the file's language. -/
def judgeAsked (language : String) (companion : Companion) (contract : Contract)
    (source : SourceFile) : List Violation :=
  if companion.isAsked contract && sameAsciiCase source.language.name language then
    judgeCompanion companion source
  else []

theorem checkCompanion_eq (language : String) (companion : Companion) (project : Project) :
    checkCompanion language companion project =
      .found (project.sources.flatMap (judgeAsked language companion project.contract)) := by
  rw [checkCompanion]
  cases asked : companion.isAsked project.contract with
  | false =>
      have none (source : SourceFile) :
          judgeAsked language companion project.contract source = [] := by
        rw [judgeAsked, asked]
        rfl
      rw [List.flatMap_eq_nil_iff.2 fun source _ => none source]
      rfl
  | true =>
      have sameFiles (sources : List SourceFile) :
          (sources.filter fun source => sameAsciiCase source.language.name language).flatMap
            (judgeCompanion companion) =
          sources.flatMap (judgeAsked language companion project.contract) := by
        induction sources with
        | nil => rfl
        | cons source rest ih =>
            rw [List.filter_cons, List.flatMap_cons, ← ih, judgeAsked, asked, Bool.true_and]
            split <;> rfl
      rw [if_pos rfl, sameFiles]

theorem judgesFiles_checkCompanion (language : String) (companion : Companion) :
    JudgesFiles languages (checkCompanion language companion) := by
  refine ⟨judgeAsked language companion, ?_, fun project _ => checkCompanion_eq _ _ project⟩
  intro contract source violation isFound
  rw [judgeAsked] at isFound
  split at isFound
  · exact file_of_mem_judgeCompanion companion source violation isFound
  · contradiction

/-! ### Export patterns -/

/-- What a file comes to by the export pattern of its language. -/
def judgeExports (compile : Pattern.Compiler) (source : SourceFile) : List Violation :=
  match exportPattern compile source.language with
  | .ok pattern => judgeManifest pattern source
  | .error _ => []

theorem file_of_mem_judgeExports (compile : Pattern.Compiler) (source : SourceFile) :
    ∀ violation ∈ judgeExports compile source, violation.file = some source.path := by
  intro violation isFound
  rw [judgeExports] at isFound
  split at isFound
  · rw [judgeManifest] at isFound
    split at isFound
    · rw [List.mem_singleton.1 isFound]
      rfl
    · contradiction
  · contradiction

/-- Sources in the languages of a table whose patterns can be remembered have one pattern for each
name. -/
theorem namesPatterns_of_rememberable {compile : Pattern.Compiler} {project : Project}
    (rememberable : project.languages.Rememberable compile) : project.NamesPatterns := by
  intro first isFirst second isSecond sameName
  have sameLanguage : first.language = second.language :=
    List.inj_on_of_nodup_map rememberable.distinct (project.language_mem isFirst)
      (project.language_mem isSecond) sameName
  rw [sameLanguage]

/-- **Remembering patterns changes nothing**: each file is judged by the pattern of its language. -/
theorem manifestsFrom_eq {compile : Pattern.Compiler} {project : Project}
    (rememberable : project.languages.Rememberable compile) :
    manifestsFrom compile [] project.sources =
      .ok (project.sources.flatMap (judgeExports compile)) := by
  have own : manifestsBy (project.patternInForce compile) project.sources =
      manifestsBy (ownPattern compile) project.sources :=
    manifestsBy_congr fun source isSource =>
      (namesPatterns_of_rememberable rememberable).patternInForce_eq compile isSource
  have readable : ∀ source ∈ project.sources, ∃ pattern, ownPattern compile source = .ok pattern :=
    fun source isSource => rememberable.exportPattern_ok (project.language_mem isSource)
  calc manifestsFrom compile [] project.sources
      = manifestsBy (project.patternInForce compile) project.sources :=
        manifestsFrom_eq_manifestsBy remembered_nil project.sources
    _ = .ok (project.sources.flatMap (judgeExports compile)) :=
        own.trans (manifestsBy_of_readable readable)

/-- What a file comes to by its manifest, which only strict contracts ask for. -/
def judgeStrictly (compile : Pattern.Compiler) (contract : Contract) (source : SourceFile) :
    List Violation :=
  if contract.mode.isStrict then judgeExports compile source else []

theorem checkManifests_eq {compile : Pattern.Compiler} {project : Project}
    (rememberable : project.languages.Rememberable compile) :
    checkManifests compile project =
      .found (project.sources.flatMap (judgeStrictly compile project.contract)) := by
  rw [checkManifests]
  split
  · next strict =>
      have same : judgeStrictly compile project.contract = judgeExports compile :=
        funext fun source => if_pos strict
      rw [manifestsFrom_eq rememberable, same]
  · next lite =>
      have none (source : SourceFile) : judgeStrictly compile project.contract source = [] :=
        if_neg lite
      rw [List.flatMap_eq_nil_iff.2 fun source _ => none source]
      rfl

theorem judgesFiles_checkManifests {compile : Pattern.Compiler}
    (rememberable : languages.Rememberable compile) :
    JudgesFiles languages (checkManifests compile) := by
  refine ⟨judgeStrictly compile, ?_, ?_⟩
  · intro contract source violation isFound
    rw [judgeStrictly] at isFound
    split at isFound
    · exact file_of_mem_judgeExports compile source violation isFound
    · contradiction
  · rintro project rfl
    exact checkManifests_eq rememberable

end Rule

/-! ## Rules that look at documents -/

namespace Project

/-- Two projects with the same root in which the documents below it read the same. -/
structure SameDocuments (first second : Project) : Prop where
  root : first.root = second.root
  read : ∀ name ∈ [contractFile, readmeFile],
    first.world.read (first.under name) = second.world.read (first.under name)

variable {first second : Project} {name : String}

theorem SameDocuments.under (same : first.SameDocuments second) (name : String) :
    second.under name = first.under name := by
  rw [Project.under, Project.under, same.root]

theorem SameDocuments.isFile (same : first.SameDocuments second)
    (isDocument : name ∈ [contractFile, readmeFile]) :
    first.world.isFile (first.under name) = second.world.isFile (first.under name) := by
  rw [World.isFile_eq_isOk, World.isFile_eq_isOk, same.read name isDocument]

theorem SameDocuments.readLossy (same : first.SameDocuments second)
    (isDocument : name ∈ [contractFile, readmeFile]) :
    first.readLossy (first.under name) = second.readLossy (first.under name) := by
  rw [Project.readLossy, Project.readLossy, World.readLossy, World.readLossy,
    same.read name isDocument]

end Project

namespace Rule

/-- A check that depends on what reading the documents gives, and on nothing else. -/
def LooksAtDocuments (check : Project → Verdict) : Prop :=
  ∀ first second : Project, first.SameDocuments second → check first = check second

theorem contractFile_mem : contractFile ∈ [contractFile, readmeFile] :=
  List.mem_cons_self

theorem readmeFile_mem : readmeFile ∈ [contractFile, readmeFile] :=
  List.mem_cons_of_mem _ (List.mem_singleton_self _)

theorem isEntryName_document : ∀ name ∈ [contractFile, readmeFile],
    Path.IsEntryName (Path.ofString name).bytes := by
  decide +kernel

theorem looksAtDocuments_checkContractPresent : LooksAtDocuments checkContractPresent := by
  intro first second same
  simp only [checkContractPresent, same.under, same.isFile contractFile_mem]

theorem looksAtDocuments_checkContractSchema : LooksAtDocuments checkContractSchema := by
  intro first second same
  simp only [checkContractSchema, same.under, same.isFile contractFile_mem,
    same.readLossy contractFile_mem]

theorem looksAtDocuments_checkReadme : LooksAtDocuments checkReadme := by
  intro first second same
  simp only [checkReadme, same.under, same.isFile readmeFile_mem, same.readLossy readmeFile_mem]

/-- A rule that judges files yields one record. -/
theorem records_of_found {rule : Rule} {project : Project} {violations : List Violation}
    (found : rule.check project = .found violations) :
    (rule.execute project).records = [⟨rule.id, rule.name, rule.severity, violations⟩] := by
  rw [execute, found]
  rfl

/-! ## The built-in rules -/

/-- The rules that judge files whatever the languages of a project. -/
def perFileIds : List String :=
  ["file-roles", "inline-hints", "forbidden-patterns", "js-state-owner", "js-service-effects",
    "ts-state-owner", "ts-service-effects", "py-service-effects"]

/-- The rules that look at documents. -/
def documentIds : List String :=
  ["contract-present", "contract-schema", "agent-readme"]

/-- What a built-in rule looks at, by its id. -/
inductive Scoped (compile : Pattern.Compiler) (rule : Rule) : Prop
  | files (isNamed : rule.id ∈ perFileIds) (judges : ∀ languages, JudgesFiles languages rule.check)
  | manifests (isNamed : rule.id = "module-manifest")
      (judges : ∀ languages : LanguageTable, languages.Rememberable compile →
        JudgesFiles languages rule.check)
  | documents (isNamed : rule.id ∈ documentIds) (looks : LooksAtDocuments rule.check)

/-- **Every built-in rule judges files one by one or looks at documents.** -/
theorem scoped_of_mem {compile : Pattern.Compiler} {rule : Rule}
    (isRule : rule ∈ (RuleTable.builtInWith compile).rules) : rule.Scoped compile := by
  have companionNamed : ∀ named ∈ RuleTable.companions, named.1 ∈ perFileIds := by decide
  cases RuleTable.builtIn_of_mem isRule with
  | contractPresent => exact .documents (by decide) looksAtDocuments_checkContractPresent
  | contractSchema => exact .documents (by decide) looksAtDocuments_checkContractSchema
  | roles => exact .files (by decide) fun _ => judgesFiles_perFile file_of_mem_judgeRoles
  | hints => exact .files (by decide) fun _ => judgesFiles_perFile file_of_mem_judgeHints
  | forbidden => exact .files (by decide) fun _ => judgesFiles_checkForbidden
  | manifests => exact .manifests rfl fun _ => judgesFiles_checkManifests
  | readme => exact .documents (by decide) looksAtDocuments_checkReadme
  | companion isNamed =>
      exact .files (companionNamed _ isNamed) fun _ => judgesFiles_checkCompanion _ _

/-- The ids tell which rules judge files. -/
theorem judgesFiles_of_id {compile : Pattern.Compiler} {rule : Rule} {languages : LanguageTable}
    (isRule : rule ∈ (RuleTable.builtInWith compile).rules)
    (isNamed : rule.id ∈ perFileIds ∨
      rule.id = "module-manifest" ∧ languages.Rememberable compile) :
    JudgesFiles languages rule.check := by
  cases scoped_of_mem isRule with
  | files _ judges => exact judges languages
  | manifests isManifest judges =>
      rw [isManifest] at isNamed
      exact judges languages (isNamed.resolve_left (by decide)).2
  | documents isDocument _ =>
      have apart : ∀ id ∈ documentIds, id ∉ perFileIds ∧ id ≠ "module-manifest" := by decide
      obtain ⟨notFile, notManifest⟩ := apart _ isDocument
      rcases isNamed with isFile | ⟨isManifest, -⟩
      · exact absurd isFile notFile
      · exact absurd isManifest notManifest

end Rule

end RepoContract
