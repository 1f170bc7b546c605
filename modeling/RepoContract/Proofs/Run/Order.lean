/-
# RepoContract.Proofs.Run.Order: the order of files

The order in which a directory lists its entries is an accident. Two worlds with the same content
(`World.SameContent`) lead every path to the same place, so a scan of either lists the same files,
in some order each. A rule that judges files says of each file what it says of it anywhere: the
violations of a record fall into blocks, one for each file, and the records of the two worlds have
the same blocks in some order each (`Record.AlikeByFile`). Blocks do not show in the counts, so the
summaries agree in all numbers.
-/
import Mathlib.Data.List.Forall2
import RepoContract.Proofs.Run.Noninterference

namespace RepoContract

set_option autoImplicit false

/-! ## Records that are alike -/

namespace Record

/-- Violations file by file: in each block those of one file, and no file twice. -/
structure InBlocks (violations : List Violation) (blocks : List (Path × List Violation)) :
    Prop where
  parts : violations = blocks.flatMap (·.2)
  distinct : (blocks.map (·.1)).Nodup
  ofFile : ∀ block ∈ blocks, ∀ violation ∈ block.2, violation.file = some block.1

/-- Records that are equal but for the order of whole blocks of violations, each of one file. -/
structure AlikeByFile (first second : Record) : Prop where
  id : first.id = second.id
  name : first.name = second.name
  severity : first.severity = second.severity
  violations : first.violations = second.violations ∨
    ∃ firstBlocks secondBlocks, InBlocks first.violations firstBlocks ∧
      InBlocks second.violations secondBlocks ∧ firstBlocks.Perm secondBlocks

theorem AlikeByFile.rfl {record : Record} : record.AlikeByFile record :=
  ⟨Eq.refl _, Eq.refl _, Eq.refl _, .inl (Eq.refl _)⟩

theorem AlikeByFile.isClean_eq {first second : Record} (alike : first.AlikeByFile second) :
    first.isClean = second.isClean := by
  rcases alike.violations with same | ⟨firstBlocks, secondBlocks, inFirst, inSecond, reordered⟩
  · rw [isClean, isClean, same]
  · rw [isClean, isClean, inFirst.parts, inSecond.parts]
    exact (reordered.flatMap_right _).isEmpty_eq

end Record

/-- Summaries with the same counts whose records are alike one by one. -/
structure Summary.AlikeByFile (first second : Summary) : Prop where
  passed : first.passed = second.passed
  failed : first.failed = second.failed
  warnings : first.warnings = second.warnings
  exitCode : first.exitCode = second.exitCode
  records : List.Forall₂ Record.AlikeByFile first.records second.records

theorem countOf_congr {first second : List Record}
    (alike : List.Forall₂ Record.AlikeByFile first second) (severity : Severity) (clean : Bool) :
    countOf severity clean first = countOf severity clean second := by
  induction alike with
  | nil => rfl
  | cons alike _ ih => rw [countOf_cons, countOf_cons, ih, alike.severity, alike.isClean_eq]

theorem Summary.AlikeByFile.rfl {summary : Summary} : summary.AlikeByFile summary :=
  ⟨Eq.refl _, Eq.refl _, Eq.refl _, Eq.refl _, List.forall₂_same.2 fun _ _ => .rfl⟩

/-- What is counted does not depend on the order of blocks. -/
theorem Summary.ofRecords_alike {first second : List Record}
    (alike : List.Forall₂ Record.AlikeByFile first second) :
    (ofRecords first).AlikeByFile (ofRecords second) := by
  rw [ofRecords_eq, ofRecords_eq]
  have failed := countOf_congr alike .error false
  exact ⟨countOf_congr alike .error true, failed, countOf_congr alike .warn false,
    congrArg (fun failed => if (failed == 0) = true then 0 else 1) failed, alike⟩

theorem forall₂_flatMap {α β : Type} {related : β → β → Prop} {items : List α}
    {first second : α → List β}
    (each : ∀ item ∈ items, List.Forall₂ related (first item) (second item)) :
    List.Forall₂ related (items.flatMap first) (items.flatMap second) := by
  induction items with
  | nil => exact .nil
  | cons item rest ih =>
      obtain ⟨here, behind⟩ := List.forall_mem_cons.1 each
      exact List.rel_append here (ih behind)

/-! ## Worlds with the same content -/

/-- Two worlds in which the same stands everywhere, whatever the order in which it is listed. -/
@[mk_iff]
structure World.SameContent (first second : World) : Prop where
  current : first.current = second.current
  occupants : ∀ names, first.root.occupantAt? names = second.root.occupantAt? names

/-- Worlds can differ only where something stands in one of them. -/
instance (first second : World) : Decidable (first.SameContent second) :=
  decidable_of_iff
    (first.current = second.current ∧ ∀ names ∈ first.root.locations ++ second.root.locations,
      first.root.occupantAt? names = second.root.occupantAt? names)
    (by
      rw [World.sameContent_iff]
      refine and_congr_right fun _ => ⟨fun same names => ?_, fun same names _ => same names⟩
      by_cases somewhere : names ∈ first.root.locations ++ second.root.locations
      · exact same names somewhere
      · rw [List.mem_append, not_or] at somewhere
        exact (Node.occupantAt?_eq_none somewhere.1).trans
          (Node.occupantAt?_eq_none somewhere.2).symm)

namespace World.SameContent

variable {first second : World} {root : Path}

theorem symm (same : first.SameContent second) : second.SameContent first :=
  ⟨same.current.symm, fun names => (same.occupants names).symm⟩

theorem locate_eq (same : first.SameContent second) (final : Final) (path : Path) :
    first.locate final path = second.locate final path := by
  rw [locate, locate, same.current]
  split
  · rfl
  · exact locateFrom_congr same.occupants _ _ _ _

theorem read_eq (same : first.SameContent second) (path : Path) :
    first.read path = second.read path := by
  have sameOccupants : first.root.occupantAt? = second.root.occupantAt? := funext same.occupants
  rw [World.read_eq, World.read_eq, occupantOf?, occupantOf?, same.locate_eq, sameOccupants]

/-- A path leads to trees with the same content. -/
theorem node_eq (same : first.SameContent second) {tree : Node}
    (leads : first.node root = .ok tree) :
    ∃ other, second.node root = .ok other ∧
      ∀ names, tree.occupantAt? names = other.occupantAt? names := by
  obtain ⟨there, located, isTree⟩ := node_eq_ok_iff.1 leads
  have isOccupant := same.occupants there
  rw [Node.occupantAt?_of_at? isTree] at isOccupant
  obtain ⟨other, isOther, -⟩ := Option.map_eq_some_iff.1 isOccupant.symm
  refine ⟨other, node_eq_ok_iff.2 ⟨there, by rw [← same.locate_eq, located], isOther⟩, ?_⟩
  intro names
  rw [← Node.occupantAt?_append isTree, ← Node.occupantAt?_append isOther, same.occupants]

end World.SameContent

/-- Walks of trees with the same content yield the same files, in some order each. -/
theorem Node.files_perm {first second : Node} (firstProper : first.isProper = true)
    (secondProper : second.isProper = true)
    (same : ∀ names, first.occupantAt? names = second.occupantAt? names) (filter : Filter) :
    (first.files filter []).Perm (second.files filter []) := by
  refine (List.perm_ext_iff_of_nodup (nodup_files firstProper) (nodup_files secondProper)).2 ?_
  intro names
  simp only [mem_files_iff firstProper, mem_files_iff secondProper, ← occupantAt?_eq_file_iff, same]

/-! ## Rules -/

namespace Project

variable {project : Project} {locations : List (List Name)}

/-- The project of a world in which the files at some locations below a root are listed. -/
def ofLocations (world : World) (root : Path) (contract : Contract)
    (locations : List (List Name)) : Project :=
  ⟨world, root, contract, ⟨root, locations.map root.descend⟩, .builtIn⟩

/-- What a judgement comes to at each of some locations below the root. -/
def blocks (project : Project) (judge : SourceFile → List Violation)
    (locations : List (List Name)) : List (Path × List Violation) :=
  locations.map fun names =>
    (.ofNames names, (project.source? (project.root.descend names)).toList.flatMap judge)

/-- **What is found falls into blocks**, one for each listed location. -/
theorem inBlocks_sources {judge : SourceFile → List Violation}
    (ownPath : ∀ source, ∀ violation ∈ judge source, violation.file = some source.path)
    (filled : locations ≠ [] → project.root.bytes ≠ [])
    (listed : project.files = ⟨project.root, locations.map project.root.descend⟩)
    (entries : ∀ names ∈ locations, ∀ name ∈ names, Path.IsEntryName name)
    (distinct : locations.Nodup) :
    Record.InBlocks (project.sources.flatMap judge) (project.blocks judge locations) where
  parts := by
    rw [sources, listed, List.filterMap_eq_flatMap_toList, List.flatMap_assoc, List.flatMap_map,
      blocks, List.flatMap_map]
  distinct := by
    rw [blocks, List.map_map]
    exact distinct.map_on fun names isListed other isOther same =>
      Path.ofNames_injective (entries names isListed) (entries other isOther) same
  ofFile := by
    intro block isBlock violation isFound
    obtain ⟨names, isListed, rfl⟩ := List.mem_map.1 isBlock
    obtain ⟨source, isSource, isFound⟩ := List.mem_flatMap.1 isFound
    obtain ⟨language, -, isSource⟩ := Option.bind_eq_some_iff.1 (Option.mem_toList.1 isSource)
    obtain ⟨text, -, isSource⟩ := Option.bind_eq_some_iff.1 isSource
    have isPath : source.path = Path.ofNames names := by
      cases isSource
      show project.files.relative _ = _
      rw [listed]
      exact Path.relativeTo_descend (filled (List.ne_nil_of_mem isListed)) (entries names isListed)
    rw [ownPath source violation isFound, isPath]

end Project

section Alike

variable {first second : World} {root : Path} {contract : Contract}
  {firstLocations secondLocations : List (List Name)}

/-- A block is the same in worlds with the same content, as its file reads the same. -/
theorem Project.blocks_congr (same : first.SameContent second) (judge : SourceFile → List Violation)
    (locations : List (List Name)) :
    (ofLocations second root contract secondLocations).blocks judge locations =
      (ofLocations first root contract firstLocations).blocks judge locations := by
  simp only [blocks, source?, ofLocations, World.readLossy, same.read_eq, FileList.relative]

/-- A built-in rule yields alike records for the same locations in some order each. -/
theorem Rule.execute_alike {rule : Rule} (isRule : rule ∈ RuleTable.builtIn.rules)
    (same : first.SameContent second) (filled : firstLocations ≠ [] → root.bytes ≠ [])
    (entries : ∀ names ∈ firstLocations, ∀ name ∈ names, Path.IsEntryName name)
    (distinct : firstLocations.Nodup) (reordered : firstLocations.Perm secondLocations) :
    List.Forall₂ Record.AlikeByFile
      (rule.execute (.ofLocations first root contract firstLocations)).records
      (rule.execute (.ofLocations second root contract secondLocations)).records := by
  have byFiles (judges : JudgesFiles .builtIn rule.check) :
      List.Forall₂ Record.AlikeByFile
        (rule.execute (.ofLocations first root contract firstLocations)).records
        (rule.execute (.ofLocations second root contract secondLocations)).records := by
    obtain ⟨judge, ownPath, judged⟩ := judges
    have inFirst := Project.inBlocks_sources (ownPath contract) filled
      (rfl : (Project.ofLocations first root contract firstLocations).files = _) entries distinct
    have inSecond := Project.inBlocks_sources (ownPath contract)
      (fun some => filled fun none => some (by rw [none] at reordered; exact reordered.nil_eq.symm))
      (rfl : (Project.ofLocations second root contract secondLocations).files = _)
      (fun names isListed => entries names (reordered.mem_iff.2 isListed))
      (reordered.nodup_iff.1 distinct)
    rw [Project.blocks_congr same] at inSecond
    rw [records_of_found (judged _ rfl), records_of_found (judged _ rfl)]
    exact .cons ⟨rfl, rfl, rfl, .inr ⟨_, _, inFirst, inSecond, reordered.map _⟩⟩ .nil
  cases scoped_of_mem isRule with
  | files _ judges => exact byFiles (judges _)
  | manifests _ judges => exact byFiles (judges _ LanguageTable.rememberable_builtIn)
  | documents _ looks =>
      have sameCheck := looks (.ofLocations first root contract firstLocations)
        (.ofLocations second root contract secondLocations) ⟨rfl, fun name _ => same.read_eq _⟩
      rw [execute_congr sameCheck]
      exact List.forall₂_same.2 fun record _ => .rfl

end Alike

/-! ## Runs -/

namespace World

variable {first second : World} {root : Path}

/-- Scans of worlds with the same content list the same locations, in some order each. -/
theorem scan_reordered {languages : LanguageTable} {declared excludes : List String}
    {found : Filter} (same : first.SameContent second) (firstProper : first.root.isProper = true)
    (secondProper : second.root.isProper = true)
    (isFilter : Eligibility.filter (languages.extensionsFor declared) excludes = .ok found) :
    ∃ firstLocations secondLocations,
      first.scan root languages declared excludes =
        .ok ⟨root, firstLocations.map root.descend⟩ ∧
      second.scan root languages declared excludes =
        .ok ⟨root, secondLocations.map root.descend⟩ ∧
      firstLocations.Perm secondLocations ∧ firstLocations.Nodup ∧
      (firstLocations ≠ [] → root.bytes ≠ []) ∧
      ∀ names ∈ firstLocations, ∀ name ∈ names, Path.IsEntryName name := by
  cases leads : first.node root with
  | error cause =>
      have missing (tree : Node) : first.node root ≠ .ok tree := by
        rw [leads]
        nofun
      have otherMissing (tree : Node) : second.node root ≠ .ok tree := fun leadsOther => by
        obtain ⟨other, isOther, -⟩ := same.symm.node_eq leadsOther
        exact missing other isOther
      exact ⟨[], [], scan_of_missing isFilter missing, scan_of_missing isFilter otherMissing, .nil,
        .nil, fun some => absurd rfl some, nofun⟩
  | ok tree =>
      obtain ⟨other, leadsOther, sameTrees⟩ := same.node_eq leads
      have proper := isProper_of_node firstProper leads
      refine ⟨_, _, scan_of_node isFilter proper leads,
        scan_of_node isFilter (isProper_of_node secondProper leadsOther) leadsOther,
        Node.files_perm proper (isProper_of_node secondProper leadsOther) sameTrees found,
        Node.nodup_files proper, fun _ => bytes_ne_nil_of_node leads, fun names isListed => ?_⟩
      obtain ⟨⟨_, here⟩, -⟩ := (Node.mem_files_iff proper).1 isListed
      exact (Node.isProper_at? proper here).1

/-- **A run does not depend on the order in which directories are listed**, but for the order of
the blocks in its records. -/
theorem validate_alike (root : Path) (excludes : List String) (same : first.SameContent second)
    (firstProper : first.root.isProper = true) (secondProper : second.root.isProper = true) :
    (first.validate root excludes .builtIn).AlikeByFile
      (second.validate root excludes .builtIn) := by
  have sameLoaded : first.loadContract root = second.loadContract root :=
    loadContract_congr (same.read_eq _)
  rcases validate_eq_or_executes excludes .builtIn sameLoaded with
    equal | ⟨contract, found, loads, secondLoads, isFilter⟩
  · rw [equal]
    exact .rfl
  · obtain ⟨firstLocations, secondLocations, firstLists, secondLists, reordered, distinct, filled,
      entries⟩ := scan_reordered same firstProper secondProper isFilter
    rw [validate_of_ok first root excludes _ loads firstLists,
      validate_of_ok second root excludes _ secondLoads secondLists]
    exact Summary.ofRecords_alike (forall₂_flatMap fun rule selected =>
      Rule.execute_alike (RuleTable.mem_rules_of_mem_select selected) same filled entries distinct
        reordered)

/-- **Rules that judge files find the same whatever stands around a file, so a run does not depend
on any order.** What such a rule finds on files one behind the other is what it finds on the first
and then on the second, and it finds nothing on a file that cannot be read or is of no known
language; the rule for manifests needs export patterns that can be remembered, whatever compiles
them. Two worlds with the same content come to the same counts, and to records that are alike but
for the order of the blocks of violations, one block for each file. -/
theorem validate_unordered :
    (∀ compile : Pattern.Compiler, ∀ rule ∈ (RuleTable.builtInWith compile).rules,
      ∀ project : Project, rule.id ∈ Rule.perFileIds ∨
        rule.id = "module-manifest" ∧ project.languages.Rememberable compile →
      (∀ first second : List Path, ∃ firstFound secondFound,
        rule.check (project.listing first) = .found firstFound ∧
        rule.check (project.listing second) = .found secondFound ∧
        rule.check (project.listing (first ++ second)) = .found (firstFound ++ secondFound)) ∧
      ∀ path, (SourceFile.classify? project.languages path = none ∨
          ∃ cause, project.world.readLossy path = .error cause) →
        rule.check (project.listing [path]) = .found []) ∧
    ∀ (first second : World) (root : Path) (excludes : List String), first.SameContent second →
      first.root.isProper = true → second.root.isProper = true →
      (first.validate root excludes .builtIn).AlikeByFile
        (second.validate root excludes .builtIn) := by
  refine ⟨fun compile rule isRule project isNamed => ?_, fun first second root excludes same
    firstProper secondProper => validate_alike root excludes same firstProper secondProper⟩
  have judges := Rule.judgesFiles_of_id isRule isNamed
  exact ⟨judges.append, fun path hidden => judges.nothing (Project.source?_eq_none hidden)⟩

/-- The world of a project with a strict contract and some sources. -/
def withSources (sources : List (String × Node)) : World :=
  ⟨.ofEntries ([(".aocs.json", .ofText scriptContract.render), ("AGENTS.md", .ofText "Guide")]
    ++ sources), []⟩

/-- A file that exports something, and one that declares two roles. -/
def oddSources : List (String × Node) :=
  [("a.js", .ofText "export default 1"), ("b.js", .ofText "// @aocs-role: ui\n// @aocs-role: util")]

/-- The project of these sources with no file listed. -/
def oddProject : Project :=
  .ofLocations (withSources oddSources) ⟨[Path.dot]⟩ scriptContract []

/-- Manifests of the two files together are those of one and then those of the other, the README
has none, and it does not matter which of the two files comes first. -/
theorem validate_unordered_oddSources :
    let check := Rule.checkManifests Pattern.compile
    (∃ firstFound secondFound,
      check (oddProject.listing [Path.ofString "a.js"]) = .found firstFound ∧
      check (oddProject.listing [Path.ofString "b.js"]) = .found secondFound ∧
      check (oddProject.listing [Path.ofString "a.js", Path.ofString "b.js"]) =
        .found (firstFound ++ secondFound)) ∧
    check (oddProject.listing [Path.ofString "AGENTS.md"]) = .found [] ∧
    (withSources oddSources).SameContent (withSources oddSources.reverse) ∧
    ((withSources oddSources).validate ⟨[Path.dot]⟩ [] .builtIn).AlikeByFile
      ((withSources oddSources.reverse).validate ⟨[Path.dot]⟩ [] .builtIn) := by
  intro check
  have same : (withSources oddSources).SameContent (withSources oddSources.reverse) := by
    decide +kernel
  have isRule : ⟨"module-manifest", "Module manifest declarations", .warn, check⟩ ∈
      (RuleTable.builtInWith Pattern.compile).rules := by
    simp [check, RuleTable.rules, RuleTable.builtInWith, RuleTable.universalRules]
  obtain ⟨additive, hidden⟩ := validate_unordered.1 Pattern.compile _ isRule oddProject
    (.inr ⟨rfl, LanguageTable.rememberable_builtIn⟩)
  exact ⟨additive _ _, hidden _ (.inl (by decide +kernel)), same,
    validate_unordered.2 _ _ _ _ same (by decide +kernel) (by decide +kernel)⟩

end World

end RepoContract
