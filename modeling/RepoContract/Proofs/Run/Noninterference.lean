/-
# RepoContract.Proofs.Run.Noninterference: what a run does not depend on

What stands strictly below a directory that a scan does not enter, and what a file holds whose path
is not accepted, is out of scope: two trees that agree in scope (`Node.AgreesInScope`) may differ
there as they like. A walk of either lists the same files in the same order (`files_eq_of_agrees`),
since it is told by the locations of the files; a listed file has the same content in both, and so
have the two documents below the root. These are all that the built-in rules look at
(`Rule.scoped_of_mem`), so a run comes to the same summary (`World.validate_eq_of_agrees`).
-/
import RepoContract.Proofs.Rule.Scope
import RepoContract.Proofs.Run.Report
import RepoContract.Proofs.Selection
import RepoContract.Proofs.Text.Utf8

namespace RepoContract

set_option autoImplicit false

open scoped List

/-! ## Order -/

/-- Two items are not in both orders in a list that has each item once. -/
theorem not_sublist_swapped {α : Type} {first second : α} {items : List α} (distinct : items.Nodup)
    (inOrder : [first, second] <+ items) : ¬ [second, first] <+ items := by
  induction items with
  | nil => cases inOrder
  | cons item rest ih =>
      obtain ⟨notBehind, restDistinct⟩ := List.nodup_cons.1 distinct
      intro swapped
      cases inOrder with
      | cons _ inRest =>
          cases swapped with
          | cons _ swappedInRest => exact ih restDistinct inRest swappedInRest
          | cons_cons _ _ => exact notBehind (inRest.subset (by simp))
      | cons_cons _ behind =>
          cases swapped with
          | cons _ swappedInRest => exact notBehind (swappedInRest.subset (by simp))
          | cons_cons _ _ => exact notBehind (behind.subset (by simp))

/-- Lists with the same items, each once, are equal when the items are in the same order. -/
theorem eq_of_same_order {α : Type} {first second : List α} (firstDistinct : first.Nodup)
    (secondDistinct : second.Nodup) (sameItems : ∀ item, item ∈ first ↔ item ∈ second)
    (sameOrder : ∀ item other, [item, other] <+ second → [item, other] <+ first) :
    first = second := by
  have oneOrder (item other : α) (_ : item ∈ first) (_ : other ∈ second)
      (inOrder : [item, other] <+ first) (swapped : [other, item] <+ first) : item = other :=
    absurd swapped (not_sublist_swapped firstDistinct inOrder)
  refine List.Perm.eq_of_pairwise oneOrder ?_ ?_
    ((List.perm_ext_iff_of_nodup firstDistinct secondDistinct).2 sameItems)
  · exact List.pairwise_iff_forall_sublist.2 id
  · exact List.pairwise_iff_forall_sublist.2 (sameOrder _ _ ·)

/-! ## Trees that agree in scope -/

namespace Node

def Occupant.isFile : Occupant → Bool
  | .file _ => true
  | .link _ | .dir => false

/-- At most a regular file stands at a location. -/
def HoldsFileAtMost (node : Node) (names : List Name) : Prop :=
  ∀ occupant ∈ node.occupantAt? names, occupant.isFile = true

/-- The same stands at a location of two trees, or at most regular files whose own path is not
accepted. -/
def AgreesAt (extensions excludes : List String) (first second : Node) (names : List Name) :
    Prop :=
  first.occupantAt? names = second.occupantAt? names ∨
    ¬ Includable extensions excludes names ∧
      first.HoldsFileAtMost names ∧ second.HoldsFileAtMost names

/-- Two trees that differ, for some extensions and globs of the user, only strictly below
directories that are not entered, or in regular files whose own path is not accepted. The files
that are left come in the same order. -/
@[mk_iff]
structure AgreesInScope (extensions excludes : List String) (first second : Node) : Prop where
  inScope : ∀ names, Reachable excludes names → first.AgreesAt extensions excludes second names
  inOrder : ∀ names other, Eligible extensions excludes names →
    Eligible extensions excludes other →
      ([names, other] <+ first.files everything [] ↔ [names, other] <+ second.files everything [])

variable {extensions excludes : List String} {first second : Node} {names : List Name}

instance (node : Node) (names : List Name) : Decidable (node.HoldsFileAtMost names) :=
  inferInstanceAs (Decidable (∀ occupant ∈ node.occupantAt? names, occupant.isFile = true))

instance (extensions excludes : List String) (first second : Node) (names : List Name) :
    Decidable (first.AgreesAt extensions excludes second names) :=
  inferInstanceAs (Decidable (_ ∨ _ ∧ _ ∧ _))

/-- Trees can differ only where something stands in one of them. -/
instance (extensions excludes : List String) (first second : Node) :
    Decidable (first.AgreesInScope extensions excludes second) :=
  decidable_of_iff
    ((∀ names ∈ first.locations ++ second.locations, Reachable excludes names →
        first.AgreesAt extensions excludes second names) ∧
      ∀ names ∈ first.files everything [] ++ second.files everything [],
        Eligible extensions excludes names →
        ∀ other ∈ first.files everything [] ++ second.files everything [],
          Eligible extensions excludes other →
            ([names, other] <+ first.files everything [] ↔
              [names, other] <+ second.files everything []))
    (by
      rw [agreesInScope_iff]
      refine and_congr ⟨fun holds names reachable => ?_, fun holds names _ => holds names⟩
        ⟨fun holds names other eligible otherEligible => ?_, fun holds names _ eligible other _ =>
          holds names other eligible⟩
      · by_cases somewhere : names ∈ first.locations ++ second.locations
        · exact holds names somewhere reachable
        · rw [List.mem_append, not_or] at somewhere
          exact .inl ((occupantAt?_eq_none somewhere.1).trans
            (occupantAt?_eq_none somewhere.2).symm)
      · by_cases listed : names ∈ first.files everything [] ++ second.files everything [] ∧
            other ∈ first.files everything [] ++ second.files everything []
        · exact holds names listed.1 eligible other listed.2 otherEligible
        · refine iff_of_false (fun isBefore => listed ?_) (fun isBefore => listed ?_)
          · exact ⟨List.mem_append_left _ (isBefore.subset (by simp)),
              List.mem_append_left _ (isBefore.subset (by simp))⟩
          · exact ⟨List.mem_append_right _ (isBefore.subset (by simp)),
              List.mem_append_right _ (isBefore.subset (by simp))⟩)

/-- Eligible locations have the same occupants in trees that agree in scope. -/
theorem AgreesInScope.occupantAt?_eq (agrees : first.AgreesInScope extensions excludes second)
    (eligible : Eligible extensions excludes names) :
    first.occupantAt? names = second.occupantAt? names :=
  (agrees.inScope names eligible.reachable).resolve_right fun ⟨notIncludable, _⟩ =>
    notIncludable eligible.includable

/-- **A walk does not tell trees apart that agree in scope.** -/
theorem files_eq_of_agrees {found : Filter}
    (isFilter : Eligibility.filter extensions excludes = .ok found)
    (firstProper : first.isProper = true) (secondProper : second.isProper = true)
    (agrees : first.AgreesInScope extensions excludes second) :
    first.files found [] = second.files found [] := by
  have mem_iff {tree : Node} (proper : tree.isProper = true) (names : List Name) :
      names ∈ tree.files found [] ↔ ∃ bytes, tree.occupantAt? names = some (.file bytes) ∧
        Eligible extensions excludes names := by
    simp only [mem_files_iff proper, occupantAt?_eq_file_iff, ← exists_and_right]
    refine exists_congr fun bytes => and_congr_right fun here => ?_
    exact Eligibility.takes_iff isFilter (isProper_at? proper here).1
  have inWalk {tree : Node} (proper : tree.isProper = true) {names other : List Name}
      (eligible : Eligible extensions excludes names)
      (otherEligible : Eligible extensions excludes other) :
      [names, other] <+ tree.files everything [] ↔ [names, other] <+ tree.files found [] := by
    rw [files_eq_filter found]
    refine ⟨fun isBefore => ?_, fun isBefore => isBefore.trans List.filter_sublist⟩
    have isTaken {names : List Name} (isFile : names ∈ tree.files everything [])
        (eligible : Eligible extensions excludes names) : found.takes names = true := by
      obtain ⟨below, bytes, rfl, here⟩ := (mem_everything_iff proper).1 isFile
      exact (Eligibility.takes_iff isFilter (isProper_at? proper here).1).2 eligible
    have kept := isBefore.filter found.takes
    rwa [List.filter_cons_of_pos (isTaken (isBefore.subset (by simp)) eligible),
      List.filter_cons_of_pos (isTaken (isBefore.subset (by simp)) otherEligible)] at kept
  refine eq_of_same_order (nodup_files firstProper) (nodup_files secondProper) ?_ ?_
  · intro names
    rw [mem_iff firstProper, mem_iff secondProper]
    refine exists_congr fun bytes => and_congr_left fun eligible => ?_
    rw [agrees.occupantAt?_eq eligible]
  · intro names other isBefore
    obtain ⟨_, -, eligible⟩ := (mem_iff secondProper names).1 (isBefore.subset (by simp))
    obtain ⟨_, -, otherEligible⟩ := (mem_iff secondProper other).1 (isBefore.subset (by simp))
    rw [← inWalk firstProper eligible otherEligible,
      agrees.inOrder names other eligible otherEligible, inWalk secondProper eligible otherEligible]
    exact isBefore

end Node

/-! ## Runs -/

namespace Project

/-- Projects whose listed files read the same have the same sources. -/
theorem sources_congr {first second : Project} (sameFiles : first.files = second.files)
    (sameLanguages : first.languages = second.languages)
    (sameContent : ∀ path ∈ first.files.files, first.world.read path = second.world.read path) :
    first.sources = second.sources := by
  rw [sources, sources, ← sameFiles]
  refine List.filterMap_congr fun path isListed => ?_
  rw [source?, source?, World.readLossy, World.readLossy, sameContent path isListed, sameFiles,
    sameLanguages]

end Project

namespace Rule

/-- A built-in rule says the same of projects with the same sources and the same documents. -/
theorem check_congr {rule : Rule} (isRule : rule ∈ RuleTable.builtIn.rules)
    {first second : Project} (firstTable : first.languages = .builtIn)
    (secondTable : second.languages = .builtIn) (sameContract : first.contract = second.contract)
    (sameSources : first.sources = second.sources) (sameDocuments : first.SameDocuments second) :
    rule.check first = rule.check second := by
  have byFiles (judges : JudgesFiles .builtIn rule.check) :
      rule.check first = rule.check second := by
    obtain ⟨judge, -, judged⟩ := judges
    rw [judged first firstTable, judged second secondTable, sameContract, sameSources]
  cases scoped_of_mem isRule with
  | files _ judges => exact byFiles (judges _)
  | manifests _ judges => exact byFiles (judges _ LanguageTable.rememberable_builtIn)
  | documents _ looks => exact looks first second sameDocuments

/-- What a rule yields follows from how its check ended. -/
theorem execute_congr {rule : Rule} {first second : Project}
    (same : rule.check first = rule.check second) : rule.execute first = rule.execute second := by
  rw [execute, execute, same]

end Rule

namespace World

variable {first second : World} {root : Path} {firstEntries secondEntries : List (Name × Node)}

/-- A contract is told by what its file reads. -/
theorem loadContract_congr
    (same : first.read (contractPath root) = second.read (contractPath root)) :
    first.loadContract root = second.loadContract root := by
  rw [loadContract, loadContract, isFile_eq_isOk, isFile_eq_isOk, readText, readText, same]

/-- Two runs that load the same contract come to the same summary, unless both get as far as to
execute their rules. -/
theorem validate_eq_or_executes (excludes : List String) (table : RuleTable)
    (sameLoaded : first.loadContract root = second.loadContract root) :
    first.validate root excludes table = second.validate root excludes table ∨
    ∃ contract found, (first.loadContract root).contract = some contract ∧
      (second.loadContract root).contract = some contract ∧
      Eligibility.filter (LanguageTable.builtIn.extensionsFor contract.languages) excludes =
        .ok found := by
  cases loads : (first.loadContract root).contract with
  | none =>
      left
      rw [validate_of_none first root excludes _ loads,
        validate_of_none second root excludes _ (sameLoaded ▸ loads), sameLoaded]
  | some contract =>
      have secondLoads : (second.loadContract root).contract = some contract := sameLoaded ▸ loads
      cases isFilter : Eligibility.filter
          (LanguageTable.builtIn.extensionsFor contract.languages) excludes with
      | error fault =>
          left
          rw [validate_of_error first root excludes _ loads (scan_of_filter_error isFilter),
            validate_of_error second root excludes _ secondLoads (scan_of_filter_error isFilter)]
      | ok found => exact .inr ⟨contract, found, rfl, secondLoads, isFilter⟩

/-- The contract of a file that is well-formed text. -/
theorem loadContract_of_read {bytes : List UInt8} {text : List Char}
    (reads : first.read (contractPath root) = .ok bytes)
    (decodes : Text.Utf8.decode? bytes = some text) :
    first.loadContract root = .ofText (contractPath root) text := by
  rw [loadContract, isFile_eq_isOk, reads, readText_of_read reads decodes]
  rfl

/-- **A run does not depend on what is out of its scope.** Two trees have the same documents at
their roots, and they agree in the scope of the contract that is loaded from there: then a run of
the built-in rules comes to the same summary in both. -/
theorem validate_eq_of_agrees (excludes : List String)
    (firstLeads : first.node root = .ok (.dir firstEntries))
    (secondLeads : second.node root = .ok (.dir secondEntries))
    (firstProper : (Node.dir firstEntries).isProper = true)
    (secondProper : (Node.dir secondEntries).isProper = true)
    (sameDocuments : ∀ name ∈ [contractFile, readmeFile],
      (Node.dir firstEntries).occupantAt? [(Path.ofString name).bytes] =
        (Node.dir secondEntries).occupantAt? [(Path.ofString name).bytes])
    (noLinks : ∀ name ∈ [contractFile, readmeFile], ∀ target,
      (Node.dir firstEntries).occupantAt? [(Path.ofString name).bytes] ≠ some (.link target))
    (agree : ∀ contract, (first.loadContract root).contract = some contract →
      (Node.dir firstEntries).AgreesInScope (LanguageTable.builtIn.extensionsFor contract.languages)
        excludes (.dir secondEntries)) :
    first.validate root excludes .builtIn = second.validate root excludes .builtIn := by
  have isEntry : ∀ name ∈ [contractFile, readmeFile],
      Path.IsEntryName (Path.ofString name).bytes := by
    decide +kernel
  have sameRead (name : String) (isDocument : name ∈ [contractFile, readmeFile]) :
      first.read (root.join (Path.ofString name)) =
        second.read (root.join (Path.ofString name)) := by
    have noLink := noLinks name isDocument
    obtain ⟨firstThere, firstFollows, firstIsDir⟩ := follow_of_node firstLeads
    obtain ⟨secondThere, secondFollows, secondIsDir⟩ := follow_of_node secondLeads
    rw [read_join firstFollows firstIsDir (isEntry name isDocument) noLink,
      sameDocuments name isDocument]
    rw [sameDocuments name isDocument] at noLink
    rw [read_join secondFollows secondIsDir (isEntry name isDocument) noLink]
  have sameLoaded : first.loadContract root = second.loadContract root :=
    loadContract_congr (sameRead contractFile Rule.contractFile_mem)
  rcases validate_eq_or_executes excludes .builtIn sameLoaded with
    same | ⟨contract, found, loads, secondLoads, isFilter⟩
  · exact same
  · have agrees := agree contract loads
    have sameFiles := Node.files_eq_of_agrees isFilter firstProper secondProper agrees
    have secondLists := scan_of_node isFilter secondProper secondLeads
    rw [← sameFiles] at secondLists
    rw [validate_of_ok first root excludes _ loads (scan_of_node isFilter firstProper firstLeads),
      validate_of_ok second root excludes _ secondLoads secondLists]
    refine congrArg _ (List.flatMap_congr fun rule selected => congrArg _ ?_)
    refine Rule.execute_congr (Rule.check_congr (RuleTable.mem_rules_of_mem_select selected) rfl rfl
      rfl (Project.sources_congr rfl rfl fun path isListed => ?_) ⟨rfl, sameRead⟩)
    -- a listed file is eligible, so it has the same content in both trees
    obtain ⟨names, isFile, rfl⟩ := List.mem_map.1 isListed
    obtain ⟨⟨bytes, here⟩, isTaken⟩ := (Node.mem_files_iff firstProper).1 isFile
    have entries := (Node.isProper_at? firstProper here).1
    have there := agrees.occupantAt?_eq ((Eligibility.takes_iff isFilter entries).1 isTaken)
    rw [Node.occupantAt?_eq_file_iff.2 here, eq_comm, Node.occupantAt?_eq_file_iff] at there
    exact (read_descend firstLeads entries here).trans
      (read_descend secondLeads entries there).symm

/-- A strict contract for one language. -/
def scriptContract : Contract := .minimal ["javascript"] .strict

theorem loads_scriptContract (path : Path) :
    (Loaded.ofText path scriptContract.render.toList).contract = some scriptContract :=
  Contract.loads_minimal (List.cons_ne_nil _ _) .strict path

/-- The entries of a project with a source file, and others of which some are out of scope. -/
def projectWith (vendored minified notes : List (String × Node)) : List (String × Node) :=
  [(".aocs.json", .ofText scriptContract.render), ("AGENTS.md", .ofText "Guide"),
    ("node_modules", .ofEntries vendored),
    ("src", .ofEntries (minified ++ [("a.js", .ofText "eval(1)")]))] ++ notes

def tidyProject : World :=
  ⟨.ofEntries (projectWith [] [] []), []⟩

def clutteredProject : World :=
  ⟨.ofEntries (projectWith [("lib", .ofEntries [("b.js", .ofText "eval(2)")])]
    [("a.min.js", .ofText "eval(3)")] [("notes.txt", .ofText "eval(4)")]), []⟩

/-- A vendored directory, a minified file and notes leave the summary as it is. -/
theorem validate_eq_of_agrees_cluttered :
    (tidyProject.loadContract ⟨[Path.dot]⟩).contract = some scriptContract ∧
    tidyProject.validate ⟨[Path.dot]⟩ [] .builtIn =
      clutteredProject.validate ⟨[Path.dot]⟩ [] .builtIn := by
  have tidyLeads := node_here tidyProject rfl
  have clutteredLeads := node_here clutteredProject rfl
  have noLinks (name : String) (isDocument : name ∈ [contractFile, readmeFile]) (target : Path) :
      tidyProject.root.occupantAt? [(Path.ofString name).bytes] ≠ some (.link target) := by
    intro isLink
    have isFile : (tidyProject.root.occupantAt? [(Path.ofString name).bytes]).any
        Node.Occupant.isFile = true := by
      clear isLink
      revert name
      decide +kernel
    rw [isLink] at isFile
    contradiction
  have loads : (tidyProject.loadContract ⟨[Path.dot]⟩).contract = some scriptContract := by
    have reads : tidyProject.read (contractPath ⟨[Path.dot]⟩) =
        .ok (Text.Utf8.encode scriptContract.render.toList) := by
      obtain ⟨there, follows, isDir⟩ := follow_of_node tidyLeads
      exact read_join follows isDir (by decide +kernel)
        (noLinks contractFile Rule.contractFile_mem)
    rw [loadContract_of_read reads (Text.Utf8.decode?_encode _), loads_scriptContract]
  refine ⟨loads, validate_eq_of_agrees [] tidyLeads clutteredLeads (by decide +kernel)
    (by decide +kernel) (by decide +kernel) noLinks fun contract isLoaded => ?_⟩
  cases loads.symm.trans isLoaded
  decide +kernel

end World

end RepoContract
