/-
# RepoContract.Proofs.Run.Classified: what is scanned is checked

A scan takes files by the extensions of the declared languages, which it finds by their names. The
source files of a project are classified by the other index of the table, from extensions to
languages. Where languages overlap the two indexes lead to different languages: a file that is
scanned for the sake of one may be checked as one of another, as in
`World.scan_classifies_takenOver`.

What holds for every history of a table is `World.scan_classifies`: each file that is scanned has
the language added last of those with its extension, so none that can be read is left out. The
built-in languages share no extension (`LanguageTable.disjoint_builtIn`), and then the language of a
scanned file is one of those declared.
-/
import RepoContract.Proofs.Language.Table
import RepoContract.Proofs.Run.Sources

namespace RepoContract

set_option autoImplicit false

namespace LanguageTable

variable {languages : List Language} {language : Language} {extension : String}

/-- No two of some languages have an extension in common. -/
def Disjoint (languages : List Language) : Prop :=
  languages.Pairwise fun earlier later =>
    ∀ extension ∈ earlier.extensions, extension ∉ later.extensions

theorem disjoint_builtIn : Disjoint builtInLanguages := by
  unfold Disjoint
  decide +kernel

/-- An extension that languages do not share leads to the one that has it. -/
theorem byExtension?_of_disjoint (disjoint : Disjoint languages) (isAdded : language ∈ languages)
    (isHere : extension ∈ language.extensions) :
    (empty.addAll languages).byExtension? extension = some language := by
  have latest := latest_byExtension? languages extension
  generalize (empty.addAll languages).byExtension? extension = found at latest ⊢
  cases latest with
  | absent nowhere => exact absurd isHere (nowhere language isAdded)
  | @found earlier later last isSplit isLast keepsIt =>
      rw [isSplit] at isAdded
      rcases List.mem_append.1 isAdded with isEarlier | isLater
      · rw [Disjoint, isSplit, List.pairwise_append] at disjoint
        exact absurd isLast (disjoint.2.2 language isEarlier last List.mem_cons_self extension isHere)
      · rcases List.mem_cons.1 isLater with rfl | isAfter
        · rfl
        · exact absurd isHere (keepsIt language isAfter)

end LanguageTable

namespace Project

variable {project : Project}

/-- Where every listed file is in a known language, the sources are what the listed files that can
be read lead to, one after the other. -/
theorem forall₂_opens_sources (known : ∀ listed ∈ project.files.files, ∃ language,
      SourceFile.classify? project.languages listed = some language) :
    List.Forall₂ project.Opens
      (project.files.files.filter fun listed => (project.world.read listed).isOk)
      project.sources := by
  rw [sources]
  generalize project.files.files = files at known ⊢
  induction files with
  | nil => exact .nil
  | cons listed rest ih =>
      rw [List.forall_mem_cons] at known
      obtain ⟨⟨language, classified⟩, restKnown⟩ := known
      cases reads : project.world.read listed with
      | error cause =>
          have closed : project.source? listed = none := by
            rw [Option.eq_none_iff_forall_ne_some]
            intro source isSource
            obtain ⟨_, bytes, -, isRead, -⟩ := source?_eq_some_iff.1 isSource
            cases isRead.symm.trans reads
          rw [List.filter_cons_of_neg (by rw [reads]; exact Bool.false_ne_true),
            List.filterMap_cons_none closed]
          exact ih restKnown
      | ok bytes =>
          have isSource := source?_eq_some_iff.2 ⟨language, bytes, classified, reads, rfl⟩
          rw [List.filter_cons_of_pos (by rw [reads]; rfl), List.filterMap_cons_some isSource]
          exact .cons (opens_iff.2 isSource) (ih restKnown)

end Project

namespace World

variable {world : World} {root : Path} {table : LanguageTable} {declared excludes : List String}
  {list : FileList}

/-- What is scanned has one of the extensions of the declared languages. -/
theorem extension_of_scan (proper : world.root.isProper = true)
    (lists : world.scan root table declared excludes = .ok list) :
    ∀ listed ∈ list.files,
      ∃ extension ∈ table.extensionsFor declared, listed.extensionText? = some extension := by
  intro listed isListed
  obtain ⟨found, isFilter, ⟨-, rfl⟩ | ⟨tree, leads, treeProper, rfl⟩⟩ := files_of_scan proper lists
  · contradiction
  · obtain ⟨names, isTaken, rfl⟩ := List.mem_map.1 isListed
    obtain ⟨⟨bytes, isFile⟩, takes⟩ := (Node.mem_files_iff treeProper).1 isTaken
    rw [Filter.takes, Bool.and_eq_true] at takes
    have below : names ≠ [] := by
      rintro rfl
      rw [Eligibility.includes_root isFilter] at takes
      exact Bool.false_ne_true takes.1
    have hasIt := takes.1
    rw [(Eligibility.filter_spec isFilter _).1, Bool.and_eq_true,
      Eligibility.hasExtension_iff] at hasIt
    obtain ⟨extension, isDeclared, isExtension⟩ := hasIt.1
    refine ⟨extension, isDeclared, ?_⟩
    rw [Path.extensionText?, Path.extension?_descend (bytes_ne_nil_of_node leads)
      (Node.isProper_at? treeProper isFile).1 below]
    exact isExtension

variable {languages : List Language}

/-- What is scanned is classified as a language that has its extension. -/
theorem exists_language_of_scan (proper : world.root.isProper = true)
    (lists : world.scan root (LanguageTable.empty.addAll languages) declared excludes = .ok list) :
    ∀ listed ∈ list.files, ∃ language ∈ languages, ∃ extension ∈ language.extensions,
      listed.extensionText? = some extension ∧
        SourceFile.classify? (LanguageTable.empty.addAll languages) listed = some language := by
  intro listed isListed
  obtain ⟨extension, isDeclared, isExtension⟩ := extension_of_scan proper lists listed isListed
  obtain ⟨claimant, isAdded, claims⟩ :=
    LanguageTable.exists_language_of_mem_extensionsFor isDeclared
  rw [LanguageTable.languages_addAll] at isAdded
  -- the language that is found need not be the one for whose sake the file is scanned
  have latest := LanguageTable.latest_byExtension? languages extension
  obtain ⟨language, found⟩ := latest.exists_of_mem isAdded claims
  rw [found] at latest
  refine ⟨language, latest.spec.1, extension, latest.spec.2, isExtension, ?_⟩
  rw [SourceFile.classify?, isExtension]
  exact found

/-- Where no extension is shared, what is scanned is classified as a language that is declared. -/
theorem exists_name_of_scan (disjoint : LanguageTable.Disjoint languages)
    (proper : world.root.isProper = true)
    (lists : world.scan root (LanguageTable.empty.addAll languages) declared excludes = .ok list) :
    ∀ listed ∈ list.files, ∃ language ∈ languages, ∃ name ∈ declared,
      SourceFile.classify? (LanguageTable.empty.addAll languages) listed = some language ∧
        plainName name = lowerName language.name := by
  intro listed isListed
  obtain ⟨extension, isDeclared, isExtension⟩ := extension_of_scan proper lists listed isListed
  obtain ⟨name, isNamed, language, found, isHere⟩ :=
    LanguageTable.mem_extensionsFor_iff.1 isDeclared
  have latest := LanguageTable.latest_byName? languages name
  rw [found] at latest
  refine ⟨language, latest.spec.1, name, isNamed, ?_, latest.spec.2⟩
  rw [SourceFile.classify?, isExtension]
  exact LanguageTable.byExtension?_of_disjoint disjoint latest.spec.1 isHere

/-- **What is scanned is checked, as one of the languages that claim it.** However a table has come
about and whatever a contract declares, each scanned file is classified as an added language with
its extension, so that each scanned file which can be read is one of the project's sources. With the
built-in languages it is classified as one that the contract names. -/
theorem scan_classifies (world : World) (root : Path) (languages : List Language)
    (contract : Contract) (excludes : List String) (proper : world.root.isProper = true)
    {list : FileList}
    (lists : world.scan root (LanguageTable.empty.addAll languages) contract.languages excludes =
      .ok list) :
    let project : Project :=
      ⟨world, root, contract, list, LanguageTable.empty.addAll languages⟩
    (∀ listed ∈ list.files, ∃ language ∈ languages, ∃ extension ∈ language.extensions,
      listed.extensionText? = some extension ∧
        SourceFile.classify? project.languages listed = some language) ∧
    List.Forall₂ project.Opens (list.files.filter fun listed => (world.read listed).isOk)
      project.sources ∧
    (languages = LanguageTable.builtInLanguages →
      ∀ listed ∈ list.files, ∃ language ∈ languages, ∃ name ∈ contract.languages,
        SourceFile.classify? project.languages listed = some language ∧
          plainName name = lowerName language.name) := by
  intro project
  have classified := exists_language_of_scan proper lists
  refine ⟨classified, Project.forall₂_opens_sources fun listed isListed => ?_, ?_⟩
  · obtain ⟨language, -, -, -, -, isClass⟩ := classified listed isListed
    exact ⟨language, isClass⟩
  · rintro rfl
    exact exists_name_of_scan LanguageTable.disjoint_builtIn proper lists

/-- A project with one typed script. -/
def typedProject : World :=
  ⟨.ofEntries [("b.ts", .ofText "let y = 2;\n")], []⟩

/-- The script as a scan lists it. -/
def typedScript : Path :=
  (Path.ofString ".").descend (Path.names "b.ts")

/-- The script is scanned wherever its extension is that of a declared language. -/
theorem exists_scan_typedProject
    (isEligible : Eligible (table.extensionsFor declared) [] (Path.names "b.ts")) :
    ∃ list, typedProject.scan (Path.ofString ".") table declared [] = .ok list ∧
      typedScript ∈ list.files := by
  have proper : typedProject.root.isProper = true := by decide +kernel
  obtain ⟨found, isFilter⟩ := Eligibility.exists_filter (table.extensionsFor declared)
  refine ⟨_, scan_of_node isFilter proper (node_here _ rfl), List.mem_map_of_mem ?_⟩
  refine (Node.mem_files_iff proper).2 ⟨⟨_, rfl⟩, ?_⟩
  exact (Eligibility.takes_iff isFilter (by decide +kernel)).2 isEligible

/-- The built-in languages and one that takes over an extension. -/
def takenOver : List Language :=
  LanguageTable.builtInLanguages ++ [⟨"deno", ["ts"], LanguageTable.slashComments, ""⟩]

/-- The script is checked as the language that took its extension over, which is none of those
declared; with the built-in languages alone it is checked as the one declared. -/
theorem scan_classifies_takenOver :
    let contract := Contract.minimal [" TypeScript"] .strict
    (∃ list, typedProject.scan (Path.ofString ".") (LanguageTable.empty.addAll takenOver)
        contract.languages [] = .ok list ∧ typedScript ∈ list.files ∧
      ∃ language ∈ takenOver, SourceFile.classify? (LanguageTable.empty.addAll takenOver)
          typedScript = some language ∧
        ∀ name ∈ contract.languages, plainName name ≠ lowerName language.name) ∧
    ∃ list, typedProject.scan (Path.ofString ".") .builtIn contract.languages [] = .ok list ∧
      ∃ language ∈ LanguageTable.builtInLanguages,
        SourceFile.classify? .builtIn typedScript = some language ∧
        ∃ name ∈ contract.languages, plainName name = lowerName language.name := by
  intro contract
  have proper : typedProject.root.isProper = true := by decide +kernel
  constructor
  · obtain ⟨list, lists, isListed⟩ := exists_scan_typedProject
      (by decide +kernel : Eligible
        ((LanguageTable.empty.addAll takenOver).extensionsFor contract.languages) [] _)
    obtain ⟨classified, -⟩ := scan_classifies typedProject _ takenOver contract [] proper lists
    obtain ⟨language, isAdded, -, -, -, isClass⟩ := classified _ isListed
    refine ⟨list, lists, isListed, language, isAdded, isClass, ?_⟩
    have isLast : SourceFile.classify? (LanguageTable.empty.addAll takenOver) typedScript =
        some ⟨"deno", ["ts"], LanguageTable.slashComments, ""⟩ := by
      decide +kernel
    cases isClass.symm.trans isLast
    decide +kernel
  · obtain ⟨list, lists, isListed⟩ := exists_scan_typedProject
      (by decide +kernel : Eligible
        (LanguageTable.builtIn.extensionsFor contract.languages) [] _)
    obtain ⟨-, -, named⟩ :=
      scan_classifies typedProject _ LanguageTable.builtInLanguages contract [] proper lists
    obtain ⟨language, isAdded, name, isNamed, isClass, same⟩ := named rfl _ isListed
    exact ⟨list, lists, language, isAdded, isClass, name, isNamed, same⟩

end World

end RepoContract
