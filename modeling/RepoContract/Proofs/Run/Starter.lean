/-
# RepoContract.Proofs.Run.Starter: a project that was just started validates

What a starter adds to a free root are two files of no language. So a scan still lists nothing and
the rules that judge files have nothing to judge; the contract loads as that of the starter, and
both documents are there. What is left to say is that the README is too long
(`Rule.isQuiet_started`), as it names the languages, and these are any texts.

The root has to be free when the files are written. That it is free before is not enough where a
directory is made for it first and the root goes up again, nor that it is free for no languages, as
a starter always has one.
-/
import RepoContract.Proofs.Run.Sources
import RepoContract.Proofs.Starter

namespace RepoContract

set_option autoImplicit false

/-- A project that holds what a starter wrote and no source file. -/
structure Project.Started (project : Project) (starter : Starter) : Prop where
  languages : project.languages = .builtIn
  sources : project.sources = []
  contract : project.world.read (project.under contractFile) =
    .ok (Text.Utf8.encode starter.contractText.toList)
  readme : project.world.read (project.under readmeFile) =
    .ok (Text.Utf8.encode starter.readmeText.toList)

namespace Rule

variable {project : Project} {rule : Rule}

/-- **Every built-in rule completes and finds nothing in a project that was just started.** The one
on the README warns if that is too long. -/
theorem isQuiet_started {languages : List String} {mode : Mode}
    (isRule : rule ∈ RuleTable.builtIn.rules)
    (started : project.Started (.ofLanguages languages mode)) :
    rule.IsQuiet project
      (Text.wordCount (Starter.ofLanguages languages mode).readmeText.toList) := by
  have quiet (noReadme : rule.id ≠ "agent-readme") (nothing : rule.check project = .found []) :
      rule.IsQuiet project
        (Text.wordCount (Starter.ofLanguages languages mode).readmeText.toList) := by
    rw [IsQuiet, if_neg noReadme]
    exact nothing
  cases judgement_of_mem isRule with
  | files isNamed judges =>
      refine quiet (fun isReadme => isNamed (isReadme ▸ by decide)) ?_
      rw [judges.check project started.languages, started.sources, List.flatMap_nil]
  | contract isNamed passes =>
      have noReadme : rule.id ≠ "agent-readme" := by
        rcases isNamed with isNamed | isNamed <;> rw [isNamed] <;> decide
      have loads : (project.world.loadContract project.root).contract =
          some (Starter.ofLanguages languages mode).contract := by
        rw [World.loadContract_of_read started.contract (Text.Utf8.decode?_encode _)]
        exact (Starter.loads_contractText languages mode _).2
      exact quiet noReadme (passes project _ loads)
  | readme isNamed isCheck =>
      have counted : project.world.readmeWords project.root =
          some (Text.wordCount (Starter.ofLanguages languages mode).readmeText.toList) := by
        have reads : project.world.read (project.root.join (Path.ofString readmeFile)) = _ :=
          started.readme
        rw [World.readmeWords, World.readLossy, reads]
        exact congrArg (some ∘ Text.wordCount) (Text.Utf8.decodeLossy_encode _)
      rw [IsQuiet, if_pos isNamed, isCheck, checkReadme_eq, counted]

end Rule

namespace World

variable {world after : World} {root : Path} {entries : List (Name × Node)}
  {languages : List String} {mode : Mode}

/-- The entries of a starter hold no file that a scan lists. -/
theorem files_append_newEntries {declared excludes : List String} {found : Filter}
    (isFilter : Eligibility.filter (LanguageTable.builtIn.extensionsFor declared) excludes =
      .ok found) (entries : List (Name × Node)) (starter : Starter) :
    (Node.dir (entries ++ starter.newEntries)).files found [] =
      (Node.dir entries).files found [] := by
  have none : (Node.dir starter.newEntries).files found [] = [] := by
    simp [Starter.newEntries, Node.ofText, Node.files, Node.filesOf, Node.isDir,
      Eligibility.includes_document isFilter Rule.contractFile_mem,
      Eligibility.includes_document isFilter Rule.readmeFile_mem]
  rw [Node.files, Node.filesOf_eq_flatMap] at none ⊢
  rw [List.flatMap_append, none, List.append_nil, Node.files, Node.filesOf_eq_flatMap]

/-- The project of a starter in a directory that had no such files. -/
theorem started_of_opensTo (starter : Starter)
    (opens : after.OpensTo root (entries ++ starter.newEntries))
    (noContract : entries.lookup (Path.ofString contractFile).bytes = none)
    (noReadme : entries.lookup (Path.ofString readmeFile).bytes = none) :
    Project.Started ⟨after, root, starter.contract, ⟨root, []⟩, .builtIn⟩ starter := by
  have isContract : (entries ++ starter.newEntries).lookup (Path.ofString contractFile).bytes =
      some (.ofText starter.contractText) := by
    rw [List.lookup_append, noContract]
    rfl
  have isReadme : (entries ++ starter.newEntries).lookup (Path.ofString readmeFile).bytes =
      some (.ofText starter.readmeText) := by
    rw [List.lookup_append, noReadme]
    rfl
  exact ⟨rfl, rfl, opens.read (Rule.isEntryName_document _ Rule.contractFile_mem) isContract,
    opens.read (Rule.isEntryName_document _ Rule.readmeFile_mem) isReadme⟩

/-- **A project that was just started validates**, whatever texts its languages are: every rule has
one record, and that is clean. The root has to be free once its directories are made, and it is if
it was free before, was a directory or does not go up. -/
theorem validate_starter {force : Bool} {paths : List Path}
    (free : (world.makeDirs root).1.FreeFor root (Starter.ofLanguages languages mode).languages ∨
      world.FreeFor root (Starter.ofLanguages languages mode).languages ∧
        (world.isDir root = true ∨ .up ∉ root.moves))
    (written : (Starter.ofLanguages languages mode).write world root force = (after, .ok paths)) :
    (after.loadContract root).contract = some (Starter.ofLanguages languages mode).contract ∧
    (after.validate root [] .builtIn).AllClear
      (RuleTable.builtIn.select (Starter.ofLanguages languages mode).contract)
      (200 < Text.wordCount (Starter.ofLanguages languages mode).readmeText.toList) := by
  have made : world.makeDirs root = ((world.makeDirs root).1, .ok ()) :=
    Prod.ext rfl (Starter.writeFiles_of_write written).1
  have freeThen : (world.makeDirs root).1.FreeFor root
      (Starter.ofLanguages languages mode).languages :=
    free.elim id fun ⟨before, stays⟩ => before.makeDirs stays made
  obtain ⟨entries, opens, opensAfter⟩ :=
    Starter.opensTo_of_write freeThen.contract freeThen.readme written
  have started := started_of_opensTo _ opensAfter
    ((opens.vacant_iff (Rule.isEntryName_document _ Rule.contractFile_mem)).1 freeThen.contract)
    ((opens.vacant_iff (Rule.isEntryName_document _ Rule.readmeFile_mem)).1 freeThen.readme)
  have loads : (after.loadContract root).contract =
      some (Starter.ofLanguages languages mode).contract := by
    rw [loadContract_of_read started.contract (Text.Utf8.decode?_encode _)]
    exact (Starter.loads_contractText languages mode _).2
  have lists : after.scan root .builtIn (Starter.ofLanguages languages mode).contract.languages [] =
      .ok ⟨root, []⟩ := by
    obtain ⟨found, isFilter⟩ := Eligibility.exists_filter
      (LanguageTable.builtIn.extensionsFor (Starter.ofLanguages languages mode).languages)
    by_cases filled : root.bytes = []
    · refine scan_of_missing isFilter fun tree leads => ?_
      exact bytes_ne_nil_of_node leads filled
    · refine (scan_eq_nil_iff isFilter (opensAfter.node_eq filled)).2 ?_
      rw [files_append_newEntries isFilter]
      exact (scan_eq_nil_iff isFilter (opens.node_eq filled)).1 freeThen.files
  refine ⟨loads, ?_⟩
  rw [validate_of_ok after root [] _ loads lists]
  refine Summary.allClear_of_isQuiet (RuleTable.nodup_ids_select RuleTable.nodup_ids_builtIn) ?_ ?_
    fun rule selected => Rule.isQuiet_started (RuleTable.mem_rules_of_mem_select selected) started
  · have isUniversal : "agent-readme" ∈ RuleTable.builtIn.universal.map (·.id) := by decide
    rw [RuleTable.select, List.map_append]
    exact List.mem_append_left _ isUniversal
  · intro isThere
    obtain ⟨rule, selected, named⟩ := List.mem_map.1 isThere
    have others : "agent-readme-warnings" ∉ RuleTable.builtIn.rules.map (·.id) := by
      decide +kernel
    exact others (named ▸ List.mem_map_of_mem (RuleTable.mem_rules_of_mem_select selected))

/-- A project with notes in it. -/
def notesProject : World :=
  ⟨.ofEntries [("app", .ofEntries [("notes.md", .ofText "Notes")])], []⟩

/-- That project with a new directory beside the notes. -/
def notesProjectWithWeb : World :=
  ⟨.ofEntries [("app", .ofEntries [("notes.md", .ofText "Notes"), ("web", .ofEntries [])])], []⟩

/-- The name of a language that is a page of quotes. -/
def quotes (count : Nat) : String :=
  String.ofList (List.replicate count ['"', ' ']).flatten

theorem wordCount_quotes (count : Nat) : Text.wordCount (quotes count).toList = count := by
  rw [quotes, String.toList_ofList]
  induction count with
  | zero => rfl
  | succ count ih =>
      rw [List.replicate_succ, List.flatten_cons]
      refine (Text.wordCountFrom_append_blank false ['"'] _ (by decide)).trans ?_
      show 1 + Text.wordCount (List.replicate count ['"', ' ']).flatten = count + 1
      rw [ih, Nat.add_comm]

/-- A starter with a README that is too long, in a directory that is not there yet. -/
theorem validate_starter_quotes :
    ∃ after paths, (Starter.ofLanguages [quotes 201] .strict).write notesProject
        (Path.ofString "app/./web//") false = (after, .ok paths) ∧
      (after.validate (Path.ofString "app/./web//") [] .builtIn).failed = 0 ∧
      (after.validate (Path.ofString "app/./web//") [] .builtIn).warnings = 1 := by
  have missing : notesProject.follow (Path.ofString "app/./web//") = .error .noEntry := by cbv
  have made : notesProject.makeDirs (Path.ofString "app/./web//") =
      (notesProjectWithWeb, .ok ()) := by
    cbv
  have opens : notesProjectWithWeb.OpensTo (Path.ofString "app/./web//") [] :=
    ⟨[(Path.ofString "app").bytes, (Path.ofString "web").bytes], by cbv, rfl⟩
  have free := freeFor_of_missing (by rw [missing]; simp) [quotes 201]
  obtain ⟨after, written, -⟩ := (Starter.ofLanguages [quotes 201] .strict).write_of_vacant false
    free.contract free.readme made opens rfl rfl
  have noUp : .up ∉ (Path.ofString "app/./web//").moves := by decide +kernel
  have isLong : 200 < Text.wordCount
      (Starter.ofLanguages [quotes 201] .strict).readmeText.toList := by
    refine Nat.lt_of_lt_of_le ?_ (Starter.wordCount_languages_le _)
    show 200 < Text.wordCount (quotes 201).toList
    rw [wordCount_quotes]
    decide
  have clear := (validate_starter (.inr ⟨free, .inr noUp⟩) written).2
  exact ⟨after, _, written, clear.failed, clear.warnings.trans (if_pos isLong)⟩

/-! ## Roots that are not free in time -/

/-- A project with a source file that declares no role. -/
def scriptProject : World :=
  ⟨.ofEntries [("a.js", .ofText "let x = 1;\n")], []⟩

/-- That project with a new directory beside the file. -/
def scriptProjectWithNew : World :=
  ⟨.ofEntries [("a.js", .ofText "let x = 1;\n"), ("new", .ofEntries [])], []⟩

/-- A script without a role makes a strict run fail. -/
theorem exitCode_of_script
    (opens : after.OpensTo root (entries ++ Starter.standard.newEntries))
    (filled : root.bytes ≠ [])
    (proper : (Node.dir (entries ++ Starter.standard.newEntries)).isProper = true)
    (isScript : entries.lookup (Path.ofString "a.js").bytes = some (.ofText "let x = 1;\n"))
    (noContract : entries.lookup (Path.ofString contractFile).bytes = none)
    (noReadme : entries.lookup (Path.ofString readmeFile).bytes = none)
    (classified : SourceFile.classify? .builtIn (root.join (Path.ofString "a.js")) =
      LanguageTable.builtInLanguages.head?) :
    (after.validate root [] .builtIn).exitCode = 1 := by
  have started := started_of_opensTo _ opens noContract noReadme
  have loads : (after.loadContract root).contract = some Starter.standard.contract := by
    rw [loadContract_of_read started.contract (Text.Utf8.decode?_encode _)]
    exact (Starter.loads_contractText [] .strict _).2
  obtain ⟨found, isFilter⟩ := Eligibility.exists_filter
    (LanguageTable.builtIn.extensionsFor Starter.standard.contract.languages)
  have leads := opens.node_eq filled
  rw [validate_of_ok after root [] _ loads (scan_of_node isFilter proper leads)]
  have here : (Node.dir (entries ++ Starter.standard.newEntries)).at?
      [(Path.ofString "a.js").bytes] = some (.ofText "let x = 1;\n") := by
    rw [Node.at?, Node.child?, List.lookup_append, isScript]
    rfl
  have isListed : [(Path.ofString "a.js").bytes] ∈
      (Node.dir (entries ++ Starter.standard.newEntries)).files found [] :=
    (Node.mem_files_iff proper).2 ⟨⟨_, here⟩, (Eligibility.takes_iff isFilter (by decide +kernel)).2
      (by decide +kernel)⟩
  let files := ((Node.dir (entries ++ Starter.standard.newEntries)).files found []).map root.descend
  let project : Project := ⟨after, root, Starter.standard.contract, ⟨root, files⟩, .builtIn⟩
  let source : SourceFile := ⟨.ofNames [(Path.ofString "a.js").bytes],
    LanguageTable.builtInLanguages.head (List.cons_ne_nil _ _), "let x = 1;\n".toList⟩
  have isSource : source ∈ project.sources := by
    refine List.mem_filterMap.2 ⟨_, List.mem_map_of_mem isListed, ?_⟩
    have reads : after.readLossy (root.descend [(Path.ofString "a.js").bytes]) =
        .ok "let x = 1;\n".toList := by
      rw [readLossy, read_descend leads (by decide +kernel) here]
      exact congrArg Except.ok (Text.Utf8.decodeLossy_encode _)
    have relative : (root.descend [(Path.ofString "a.js").bytes]).relativeTo root =
        .ofNames [(Path.ofString "a.js").bytes] :=
      Path.relativeTo_descend filled (by decide +kernel)
    have isScript : SourceFile.classify? .builtIn (root.descend [(Path.ofString "a.js").bytes]) =
        some source.language := classified
    simp only [Project.source?, project, isScript, reads, FileList.relative, relative]
    rfl
  have isFound : Rule.judgeRoles Starter.standard.contract source ≠ [] := by decide +kernel
  refine (Summary.ofRecords_tallied _).failure.2 ⟨⟨"file-roles", "File role declarations", .error,
    project.sources.flatMap (Rule.judgeRoles Starter.standard.contract)⟩, ?_, rfl, ?_⟩
  · rw [Summary.ofRecords_eq]
    exact List.mem_flatMap.2 ⟨_, List.mem_append_left _ (List.mem_of_getElem? (i := 2) rfl),
      List.mem_singleton_self _⟩
  · intro none
    exact isFound (List.flatMap_eq_nil_iff.1 none source isSource)

/-- **A root that is free before its directories are made need not be free then**, and one that is
free for no languages need not be free for those of a starter. In both cases the starter is written
and its own contract fails on the script. -/
theorem exitCode_unfree :
    (scriptProject.FreeFor (Path.ofString ".") [] ∧
      ∃ after paths, (Starter.ofLanguages [] .strict).write scriptProject
          (Path.ofString ".") false = (after, .ok paths) ∧
        (after.validate (Path.ofString ".") [] .builtIn).exitCode = 1) ∧
    (scriptProject.FreeFor (Path.ofString "new/..") ["javascript"] ∧
      ∃ after paths, (Starter.ofLanguages ["javascript"] .strict).write scriptProject
          (Path.ofString "new/..") false = (after, .ok paths) ∧
        (after.validate (Path.ofString "new/..") [] .builtIn).exitCode = 1) := by
  constructor
  · have opens : scriptProject.OpensTo (Path.ofString ".") _ := ⟨[], by cbv, rfl⟩
    have made : scriptProject.makeDirs (Path.ofString ".") = (scriptProject, .ok ()) := by cbv
    have free : scriptProject.FreeFor (Path.ofString ".") [] := by
      refine ⟨(opens.vacant_iff (Rule.isEntryName_document _ Rule.contractFile_mem)).2 rfl,
        (opens.vacant_iff (Rule.isEntryName_document _ Rule.readmeFile_mem)).2 rfl, ?_⟩
      obtain ⟨found, isFilter⟩ :=
        Eligibility.exists_filter (LanguageTable.builtIn.extensionsFor [])
      have notIncluded : found.includes (.ofNames [(Path.ofString "a.js").bytes]) = false := by
        rw [← Bool.not_eq_true, Eligibility.includes_iff isFilter]
        decide +kernel
      refine (scan_eq_nil_iff isFilter (opens.node_eq (by decide +kernel))).2 ?_
      simp [Node.files, Node.filesOf, Node.ofText, Node.isDir, notIncluded]
    obtain ⟨after, written, opensAfter⟩ := (Starter.ofLanguages [] .strict).write_of_vacant false
      free.contract free.readme made opens rfl rfl
    exact ⟨free, after, _, written, exitCode_of_script opensAfter (by decide +kernel)
      (by decide +kernel) rfl rfl rfl (by decide +kernel)⟩
  · have missing : scriptProject.follow (Path.ofString "new/..") = .error .noEntry := by cbv
    have made : scriptProject.makeDirs (Path.ofString "new/..") =
        (scriptProjectWithNew, .ok ()) := by
      cbv
    have opens : scriptProjectWithNew.OpensTo (Path.ofString "new/..") _ := ⟨[], by cbv, rfl⟩
    have free := freeFor_of_missing (by rw [missing]; simp) ["javascript"]
    obtain ⟨after, written, opensAfter⟩ :=
      (Starter.ofLanguages ["javascript"] .strict).write_of_vacant false free.contract free.readme
        made opens rfl rfl
    exact ⟨free, after, _, written, exitCode_of_script opensAfter (by decide +kernel)
      (by decide +kernel) rfl rfl rfl (by decide +kernel)⟩

end World

end RepoContract
