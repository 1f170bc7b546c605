/-
# RepoContract.Proofs.Run.Spelling: the verdict does not depend on how the root is spelled

A run is given the path of its root, and joins it with the names of what it looks at. The files that
it judges are shown as they look from the root, so the spelling is taken off again and the sources
are told by the directory alone. The two documents are read through the root as it is spelled; they
read the same under two spellings, unless there are too many links on the way under one of them
only. So a run comes to the same summary (`World.validate_respelled`), and the fallback for a path
that does not lie below the root is never taken for a file that was listed.

`World.validate_throughLinks` shows what the exception is about: a README behind links that are too
many together with those of the root.
-/
import RepoContract.Proofs.Run.Sources
import RepoContract.Proofs.Source
import RepoContract.Proofs.Tree.Spelling

namespace RepoContract

set_option autoImplicit false

/-- The contract that a text holds does not depend on where the text stands. -/
theorem Loaded.contract_ofText (path other : Path) (text : List Char) :
    (ofText path text).contract = (ofText other text).contract := by
  cases parsed : Json.parse text with
  | error fault => rw [ofText_of_error path parsed, ofText_of_error other parsed]
  | ok document =>
      by_cases conforms : Schema.Conforms document
      · obtain ⟨members, rfl, conforming⟩ := conforms
        obtain ⟨contract, describes⟩ := Contract.exists_describes conforming
        rw [ofText_of_describes path parsed conforming describes,
          ofText_of_describes other parsed conforming describes]
      · rw [(ofText_of_not_conforms path parsed conforms).2,
          (ofText_of_not_conforms other parsed conforms).2]

/-! ## Projects under two spellings -/

/-- Two projects with the same contract, which loads from both, the same sources, and READMEs with
the same number of words. -/
structure Project.Respelled (first second : Project) : Prop where
  firstLoaded : first.IsLoaded
  secondLoaded : second.IsLoaded
  contract : first.contract = second.contract
  sources : first.sources = second.sources
  readmeWords : first.world.readmeWords first.root = second.world.readmeWords second.root

namespace Rule

/-- A built-in rule says the same of a project under two spellings. -/
theorem check_respelled {rule : Rule} (isRule : rule ∈ RuleTable.builtIn.rules)
    {first second : Project} (respelled : first.Respelled second) :
    rule.check first = rule.check second := by
  cases judgement_of_mem isRule with
  | files _ judges =>
      rw [judges.check first respelled.firstLoaded.table,
        judges.check second respelled.secondLoaded.table, respelled.contract, respelled.sources]
  | contract _ passes =>
      rw [passes first _ respelled.firstLoaded.loads, passes second _ respelled.secondLoaded.loads]
  | readme _ isCheck => rw [isCheck, checkReadme_eq, checkReadme_eq, respelled.readmeWords]

/-- What is said of a project without a README. -/
def noReadme : Violation :=
  .general ("missing " ++ readmeFile ++ " at the project root")

end Rule

namespace World

variable {world : World} {root first second : Path} {there : List Name} {contract : Contract}
  {excludes : List String} {files : FileList}

/-! ## What two spellings have in common -/

theorem node_respelled (firstLeads : world.locate .follow first = .ok there)
    (secondLeads : world.locate .follow second = .ok there) :
    world.node first = world.node second := by
  rw [node, node, firstLeads, secondLeads]

/-- A contract loads through a spelling under which its file reads the same. -/
theorem loads_respelled (loads : (world.loadContract first).contract = some contract)
    (same : world.read (contractPath first) = world.read (contractPath second)) :
    (world.loadContract second).contract = some contract := by
  obtain ⟨bytes, text, reads, decodes, isText⟩ := exists_text_of_loads loads
  rw [loadContract_of_read (same.symm.trans reads) decodes,
    Loaded.contract_ofText _ (contractPath first), isText]

/-- The sources of a run are told by the directory to which the root leads. -/
theorem judgedSources_respelled (proper : world.root.isProper = true)
    (same : world.node first = world.node second) (contract : Contract) (excludes : List String) :
    world.judgedSources first contract excludes = world.judgedSources second contract excludes := by
  cases isFilter : Eligibility.filter
      (LanguageTable.builtIn.extensionsFor contract.languages) excludes with
  | error fault =>
      rw [judgedSources, judgedSources, scan_of_filter_error isFilter,
        scan_of_filter_error isFilter]
  | ok found =>
      cases leads : world.node first with
      | error cause =>
          have missing {path : Path} (fails : world.node path = .error cause) (tree : Node) :
              world.node path ≠ .ok tree := fun isTree => by
            rw [fails] at isTree
            contradiction
          rw [judgedSources, judgedSources, scan_of_missing isFilter (missing leads),
            scan_of_missing isFilter (missing (same.symm.trans leads))]
          rfl
      | ok tree =>
          have treeProper := isProper_of_node proper leads
          rw [judgedSources_of_filter isFilter treeProper leads,
            judgedSources_of_filter isFilter treeProper (same.symm.trans leads)]

/-! ## Files that are listed, and what is found -/

/-- **A scan goes through paths as text, and each path it lists lies below the root.** -/
theorem listed_of_scan {languages : LanguageTable} {declared : List String} {found : Filter}
    (proper : world.root.isProper = true)
    (isFilter : Eligibility.filter (languages.extensionsFor declared) excludes = .ok found)
    (lists : world.scan root languages declared excludes = .ok files) :
    files.root = root ∧ files.files = world.walkByText found root ∧
      ∀ listed ∈ files.files, ∃ names, listed = root.descend names ∧
        Path.below? root listed = some (.ofNames names) := by
  have unnamed := Eligibility.includes_root isFilter
  rw [← walk_eq_walkByText unnamed proper, walk_eq world root unnamed]
  obtain ⟨other, isOther, ⟨⟨cause, leads⟩, rfl⟩ | ⟨tree, leads, treeProper, rfl⟩⟩ :=
    files_of_scan proper lists
  · rw [leads]
    exact ⟨rfl, rfl, nofun⟩
  · cases isFilter.symm.trans isOther
    rw [leads]
    refine ⟨rfl, rfl, ?_⟩
    intro listed isListed
    obtain ⟨names, isFile, rfl⟩ := List.mem_map.1 isListed
    obtain ⟨⟨bytes, here⟩, -⟩ := (Node.mem_files_iff treeProper).1 isFile
    exact ⟨names, rfl, Path.below?_descend (bytes_ne_nil_of_node leads)
      (Node.isProper_at? treeProper here).1⟩

/-- **What a run finds is about a file that was listed or about the README.** -/
theorem violation_of_mem (loads : (world.loadContract root).contract = some contract)
    (lists : world.scan root .builtIn contract.languages excludes = .ok files) {record : Record}
    (isRecord : record ∈ (world.validate root excludes .builtIn).records) {violation : Violation}
    (isFound : violation ∈ record.violations) :
    violation = Rule.noReadme ∧ world.readmeWords root = none ∨
      violation.file = some (Path.ofString readmeFile) ∨
      ∃ listed ∈ files.files, violation.file = some (files.relative listed) := by
  rw [validate_of_ok world root excludes _ loads lists, Summary.ofRecords_eq] at isRecord
  obtain ⟨rule, selected, isRecord⟩ := List.mem_flatMap.1 isRecord
  have isRule := RuleTable.mem_rules_of_mem_select selected
  have byFiles (judges : Rule.JudgesFiles .builtIn rule.check) :
      ∃ listed ∈ files.files, violation.file = some (files.relative listed) := by
    obtain ⟨judge, ownPath, judged⟩ := judges
    rw [Rule.records_of_found (judged _ rfl), List.mem_singleton] at isRecord
    rw [isRecord] at isFound
    obtain ⟨source, isSource, isFound⟩ := List.mem_flatMap.1 isFound
    obtain ⟨listed, isListed, isSource⟩ := List.mem_filterMap.1 isSource
    obtain ⟨_, _, -, -, rfl⟩ := Project.source?_eq_some_iff.1 isSource
    exact ⟨listed, isListed, ownPath _ _ violation isFound⟩
  cases Rule.judgement_of_mem isRule with
  | files noDocument _ =>
      cases Rule.scoped_of_mem isRule with
      | files _ judges => exact .inr (.inr (byFiles (judges _)))
      | manifests _ judges =>
          exact .inr (.inr (byFiles (judges _ LanguageTable.rememberable_builtIn)))
      | documents isDocument _ => exact absurd isDocument noDocument
  | contract _ passes =>
      rw [Rule.records_of_found (passes _ contract loads), List.mem_singleton] at isRecord
      rw [isRecord] at isFound
      contradiction
  | readme isNamed isCheck =>
      rw [Rule.records_of_readme isNamed isCheck] at isRecord
      rcases List.mem_cons.1 isRecord with rfl | isFurther
      · cases counted : world.readmeWords root with
        | none =>
            simp only [counted, Option.isSome_none, Bool.false_eq_true, if_false,
              List.mem_singleton] at isFound
            exact .inl ⟨isFound, rfl⟩
        | some words =>
            simp [counted] at isFound
      · obtain ⟨words, -, isFurther⟩ := List.mem_flatMap.1 isFurther
        rw [Rule.lengthRecords] at isFurther
        split_ifs at isFurther with isLong
        · rw [List.mem_singleton.1 isFurther, Rule.lengthWarnings, if_pos isLong] at isFound
          rw [List.mem_singleton.1 isFound]
          exact .inr (.inl rfl)
        · contradiction

/-- **The verdict does not depend on how the root is spelled.** Two paths lead to one directory, whose
contract loads through one of them, and neither document below it is behind too many links through
one of them only. Then a run of the built-in rules comes to the same summary. Under either path the
files are those that a walk by text lists; each lies below the root, so the fallback for a path that
does not is never taken; and whatever is found is about a file as it looks from the root, or about
the README. A spelling can be of any length here; where a system limits the length of a path, one
that is too long leads nowhere. -/
theorem validate_respelled (proper : world.root.isProper = true)
    (firstLeads : world.locate .follow first = .ok there)
    (secondLeads : world.locate .follow second = .ok there)
    (loads : (world.loadContract first).contract = some contract)
    (alike : ∀ name ∈ [contractFile, readmeFile],
      (world.locate .follow (first.join (Path.ofString name)) = .error .tooManyLinks ↔
        world.locate .follow (second.join (Path.ofString name)) = .error .tooManyLinks))
    (usable : ∀ glob ∈ excludes, Glob.isUsable glob = true) :
    world.validate first excludes .builtIn = world.validate second excludes .builtIn ∧
      ∀ root ∈ [first, second], ∃ found files,
        Eligibility.filter (LanguageTable.builtIn.extensionsFor contract.languages) excludes =
          .ok found ∧
        world.scan root .builtIn contract.languages excludes = .ok files ∧
        files.files = world.walkByText found root ∧
        (∀ listed ∈ files.files, ∃ names, listed = root.descend names ∧
          Path.below? root listed = some (.ofNames names)) ∧
        ∀ record ∈ (world.validate root excludes .builtIn).records,
          ∀ violation ∈ record.violations, ∀ file ∈ violation.file,
            file = Path.ofString readmeFile ∨
              ∃ listed ∈ files.files, Path.below? root listed = some file := by
  have sameRead (name : String) (isDocument : name ∈ [contractFile, readmeFile]) :
      world.read (first.join (Path.ofString name)) =
        world.read (second.join (Path.ofString name)) :=
    read_of_respelled firstLeads secondLeads (Rule.isEntryName_document name isDocument)
      (alike name isDocument)
  have secondLoads := loads_respelled loads (sameRead contractFile Rule.contractFile_mem)
  constructor
  · obtain ⟨firstFiles, firstLists⟩ := exists_files_of_usable world first contract usable
    obtain ⟨secondFiles, secondLists⟩ := exists_files_of_usable world second contract usable
    have sameNode := node_respelled firstLeads secondLeads
    have sameSources := judgedSources_respelled proper sameNode contract excludes
    rw [judgedSources, judgedSources, firstLists, secondLists] at sameSources
    have sameWords : world.readmeWords first = world.readmeWords second := by
      rw [readmeWords, readmeWords, readLossy, readLossy, sameRead readmeFile Rule.readmeFile_mem]
    rw [validate_of_ok world first excludes _ loads firstLists,
      validate_of_ok world second excludes _ secondLoads secondLists]
    refine congrArg _ (List.flatMap_congr fun rule selected => congrArg _ ?_)
    exact Rule.execute_congr (Rule.check_respelled (RuleTable.mem_rules_of_mem_select selected)
      ⟨⟨rfl, loads⟩, ⟨rfl, secondLoads⟩, rfl, sameSources, sameWords⟩)
  · intro root isRoot
    have rootLoads : (world.loadContract root).contract = some contract := by
      rcases List.mem_pair.1 isRoot with rfl | rfl
      · exact loads
      · exact secondLoads
    obtain ⟨found, isFilter⟩ := Eligibility.exists_filter_of_usable
      (LanguageTable.builtIn.extensionsFor contract.languages) usable
    obtain ⟨files, lists⟩ := exists_files_of_usable world root contract usable
    obtain ⟨isRoot, walked, below⟩ := listed_of_scan proper isFilter lists
    refine ⟨found, files, isFilter, lists, walked, below, ?_⟩
    intro record isRecord violation isFound file isFile
    rcases violation_of_mem rootLoads lists isRecord isFound with
      ⟨rfl, -⟩ | isReadme | ⟨listed, isListed, isRelative⟩
    · contradiction
    · exact .inl (Option.some.inj (isFile.symm.trans isReadme))
    · obtain ⟨names, -, isBelow⟩ := below listed isListed
      refine .inr ⟨listed, isListed, ?_⟩
      rw [FileList.relative, isRoot, Path.relativeTo, isBelow] at isRelative
      rw [isBelow]
      exact isRelative.symm.trans isFile

/-- The entries of a project with a script and a README. -/
def scriptEntries : List (String × Node) :=
  [(".aocs.json", .ofText scriptContract.render), ("AGENTS.md", .ofText "Guide"),
    ("a.js", .ofText "eval(1)")]

/-- A project, a link to it, and a directory beside it. -/
def besideLink : World :=
  ⟨.ofEntries [("d", .ofEntries scriptEntries), ("l", .link (Path.ofString "d")),
    ("x", .ofEntries [])], []⟩

/-- The project comes to the same summary through its name and through an odd path to the link. -/
theorem validate_respelled_besideLink :
    besideLink.root.isProper = true ∧
    besideLink.locate .follow (Path.ofString "d") = .ok [(Path.ofString "d").bytes] ∧
    besideLink.locate .follow (Path.ofString "./x/../l/") = .ok [(Path.ofString "d").bytes] ∧
    (besideLink.loadContract (Path.ofString "d")).contract = some scriptContract ∧
    besideLink.validate (Path.ofString "d") [] .builtIn =
      besideLink.validate (Path.ofString "./x/../l/") [] .builtIn := by
  have proper : besideLink.root.isProper = true := by decide +kernel
  have firstLeads : besideLink.locate .follow (Path.ofString "d") =
      .ok [(Path.ofString "d").bytes] := by
    cbv
  have secondLeads : besideLink.locate .follow (Path.ofString "./x/../l/") =
      .ok [(Path.ofString "d").bytes] := by
    cbv
  have isDir : besideLink.root.at? [(Path.ofString "d").bytes] =
      some (.ofEntries scriptEntries) := rfl
  have noLink (name : String) (isDocument : name ∈ [contractFile, readmeFile]) {path : Path}
      (leads : besideLink.locate .follow path = .ok [(Path.ofString "d").bytes]) :
      besideLink.locate .follow (path.join (Path.ofString name)) ≠ .error .tooManyLinks := by
    refine locate_ne_tooManyLinks leads isDir (Rule.isEntryName_document name isDocument) ?_
    intro target (isLink : besideLink.root.occupantAt?
      [(Path.ofString "d").bytes, (Path.ofString name).bytes] = some (.link target))
    have isFile : (besideLink.root.occupantAt? [(Path.ofString "d").bytes,
        (Path.ofString name).bytes]).any Node.Occupant.isFile = true := by
      clear isLink
      revert name
      decide +kernel
    rw [isLink] at isFile
    contradiction
  have loads : (besideLink.loadContract (Path.ofString "d")).contract = some scriptContract := by
    have reads : besideLink.read (contractPath (Path.ofString "d")) =
        .ok (Text.Utf8.encode scriptContract.render.toList) := by
      have leads : besideLink.locate .follow (contractPath (Path.ofString "d")) =
          .ok [(Path.ofString "d").bytes, (Path.ofString ".aocs.json").bytes] := by
        cbv
      exact read_of_locate leads rfl
    rw [loadContract_of_read reads (Text.Utf8.decode?_encode _), loads_scriptContract]
  refine ⟨proper, firstLeads, secondLeads, loads, ?_⟩
  exact (validate_respelled proper firstLeads secondLeads loads
    (fun name isDocument => iff_of_false (noLink name isDocument firstLeads)
      (noLink name isDocument secondLeads)) (List.forall_mem_nil _)).1

/-! ## Too many links -/

/-- Links one to the next, the last to some path; their names are a letter more and more often. -/
def chain (letter : UInt8) (count : Nat) (target : Path) : List (Name × Node) :=
  (List.range count).map fun place =>
    (List.replicate (place + 1) letter,
      .link (if place + 1 = count then target else ⟨List.replicate (place + 2) letter⟩))

/-- A project behind twenty-five links, with a README behind as many. -/
def throughLinks : World :=
  ⟨.dir (((Path.ofString "d").bytes, .dir ([
      ((Path.ofString ".aocs.json").bytes, .ofText scriptContract.render),
      ((Path.ofString "AGENTS.md").bytes, .link (Path.ofString "m")),
      ((Path.ofString "guide.md").bytes, .ofText "Guide")] ++
        chain 109 24 (Path.ofString "guide.md"))) ::
    chain 108 25 (Path.ofString "d")), []⟩

/-- A run without a README says so. -/
theorem record_of_noReadme (loads : (world.loadContract root).contract = some contract)
    (usable : ∀ glob ∈ excludes, Glob.isUsable glob = true)
    (missing : world.readmeWords root = none) :
    ∃ record ∈ (world.validate root excludes .builtIn).records,
      record.violations = [Rule.noReadme] := by
  obtain ⟨files, lists⟩ := exists_files_of_usable world root contract usable
  rw [validate_of_ok world root excludes _ loads lists, Summary.ofRecords_eq]
  refine ⟨⟨Rule.readme.id, Rule.readme.name, Rule.readme.severity, [Rule.noReadme]⟩,
    List.mem_flatMap.2 ⟨Rule.readme, RuleTable.readme_mem_select contract, ?_⟩, rfl⟩
  rw [Rule.records_of_readme rfl rfl, missing]
  exact List.mem_cons_self

/-- **Links on the way to the root count for what is read below it.** Both paths lead to the project
and its contract loads through both, but through the links the README is missing. -/
theorem validate_throughLinks :
    throughLinks.root.isProper = true ∧
    throughLinks.locate .follow (Path.ofString "d") = .ok [(Path.ofString "d").bytes] ∧
    throughLinks.locate .follow (Path.ofString "l") = .ok [(Path.ofString "d").bytes] ∧
    (throughLinks.loadContract (Path.ofString "d")).contract = some scriptContract ∧
    (throughLinks.loadContract (Path.ofString "l")).contract = some scriptContract ∧
    throughLinks.validate (Path.ofString "d") [] .builtIn ≠
      throughLinks.validate (Path.ofString "l") [] .builtIn := by
  have loads (root : Path) (leads : throughLinks.locate .follow (contractPath root) =
      .ok [(Path.ofString "d").bytes, (Path.ofString ".aocs.json").bytes]) :
      (throughLinks.loadContract root).contract = some scriptContract := by
    have reads : throughLinks.read (contractPath root) =
        .ok (Text.Utf8.encode scriptContract.render.toList) :=
      read_of_locate leads rfl
    rw [loadContract_of_read reads (Text.Utf8.decode?_encode _), loads_scriptContract]
  have firstLoads := loads (Path.ofString "d") (by cbv)
  have secondLoads := loads (Path.ofString "l") (by cbv)
  refine ⟨by decide +kernel, by cbv, by cbv, firstLoads, secondLoads, fun same => ?_⟩
  have isThere : throughLinks.readmeWords (Path.ofString "d") ≠ none := by
    have leads : throughLinks.locate .follow ((Path.ofString "d").join (Path.ofString readmeFile)) =
        .ok [(Path.ofString "d").bytes, (Path.ofString "guide.md").bytes] := by
      cbv
    rw [readmeWords, readLossy, read_of_locate leads rfl]
    exact Option.some_ne_none _
  have isMissing : throughLinks.readmeWords (Path.ofString "l") = none := by
    have stops : throughLinks.locate .follow ((Path.ofString "l").join (Path.ofString readmeFile)) =
        .error .tooManyLinks := by
      cbv
    rw [readmeWords, readLossy, read, node, stops]
    rfl
  obtain ⟨record, isRecord, isOnly⟩ := record_of_noReadme secondLoads
    (List.forall_mem_nil _) isMissing
  obtain ⟨files, lists⟩ : ∃ files, throughLinks.scan (Path.ofString "d") .builtIn
      scriptContract.languages [] = .ok files :=
    exists_files_of_usable _ _ _ (List.forall_mem_nil _)
  rw [← same] at isRecord
  have isFound : Rule.noReadme ∈ record.violations := by
    rw [isOnly]
    exact List.mem_singleton_self _
  have general : Rule.noReadme.file = none := rfl
  rcases violation_of_mem firstLoads lists isRecord isFound with
    ⟨-, missing⟩ | isReadme | ⟨listed, -, isFile⟩
  · exact isThere missing
  · exact absurd (isReadme.symm.trans general) (Option.some_ne_none _)
  · exact absurd (isFile.symm.trans general) (Option.some_ne_none _)

end World

end RepoContract
