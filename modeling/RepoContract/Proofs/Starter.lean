/-
# RepoContract.Proofs.Starter: writing a starter

A root is free for a starter when neither of its two files stands there and a scan for its languages
lists none (`World.FreeFor`). A root that is not there is free (`freeFor_of_missing`), and it stays
free while its directories are made if it does not go up again (`FreeFor.makeDirs`). Writing the
starter then adds its two files to the entries of the directory (`Starter.opensTo_of_write`), and
nothing else keeps it from being written (`Starter.write_of_vacant`).
-/
import RepoContract.Proofs.Contract.RoundTrip
import RepoContract.Proofs.Rule.Scope
import RepoContract.Proofs.Selection
import RepoContract.Proofs.Text.Blank
import RepoContract.Proofs.Tree.Disk

namespace RepoContract

set_option autoImplicit false

namespace World

variable {world after : World} {root : Path} {entries : List (Name × Node)}
  {languages : List String}

/-! ## Free roots -/

/-- A root where neither file of a starter stands and where a scan for its languages lists none. -/
structure FreeFor (world : World) (root : Path) (languages : List String) : Prop where
  contract : world.Vacant (contractPath root)
  readme : world.Vacant (Starter.readmePath root)
  files : world.scan root .builtIn languages [] = .ok ⟨root, []⟩

/-- A root that leads nowhere is free. -/
theorem freeFor_of_missing (missing : ∀ there, world.follow root ≠ .ok there)
    (languages : List String) : world.FreeFor root languages := by
  have vacant {name : String} (isDocument : name ∈ [contractFile, readmeFile]) :
      world.Vacant (root.join (Path.ofString name)) := by
    obtain ⟨left, goesOn⟩ :=
      world.locate_join .keep root (Rule.isEntryName_document name isDocument)
    intro there located
    obtain ⟨above, leads, -⟩ := exists_of_bind_eq_ok (goesOn.symm.trans located)
    exact missing above leads
  obtain ⟨found, isFilter⟩ :=
    Eligibility.exists_filter (LanguageTable.builtIn.extensionsFor languages)
  refine ⟨vacant Rule.contractFile_mem, vacant Rule.readmeFile_mem,
    scan_of_missing isFilter fun tree leads => ?_⟩
  obtain ⟨there, follows, -⟩ := follow_of_node leads
  exact missing there follows

/-- **A free root stays free while its directories are made**, unless it goes up to where none was
made. -/
theorem FreeFor.makeDirs (free : world.FreeFor root languages)
    (stays : world.isDir root = true ∨ .up ∉ root.moves)
    (made : world.makeDirs root = (after, .ok ())) : after.FreeFor root languages := by
  rcases makeDirs_cases stays made with rfl | opens
  · exact free
  · by_cases filled : root.bytes = []
    · cases (makeDirsFrom_empty _ world filled).symm.trans made
      exact free
    · obtain ⟨found, isFilter⟩ :=
        Eligibility.exists_filter (LanguageTable.builtIn.extensionsFor languages)
      constructor
      · exact (opens.vacant_iff (Rule.isEntryName_document _ Rule.contractFile_mem)).2 rfl
      · exact (opens.vacant_iff (Rule.isEntryName_document _ Rule.readmeFile_mem)).2 rfl
      · rw [scan_eq_nil_iff isFilter (opens.node_eq filled)]
        rfl

end World

/-! ## Writing the files -/

namespace Starter

variable {world after : World} {root : Path} {entries : List (Name × Node)} {starter : Starter}

/-- The entries that a starter adds to a directory. -/
def newEntries (starter : Starter) : List (Name × Node) :=
  [((Path.ofString contractFile).bytes, .ofText starter.contractText),
    ((Path.ofString readmeFile).bytes, .ofText starter.readmeText)]

/-- In an open directory without them both files are written. -/
theorem writeFiles_of_opensTo (starter : Starter) (opens : world.OpensTo root entries)
    (noContract : entries.lookup (Path.ofString contractFile).bytes = none)
    (noReadme : entries.lookup (Path.ofString readmeFile).bytes = none) :
    ∃ after, writeFiles .unlimited world (starter.files root) =
        (after, .ok [contractPath root, readmePath root]) ∧
      after.OpensTo root (entries ++ starter.newEntries) := by
  obtain ⟨between, written, opensBetween⟩ := opens.write
    (Rule.isEntryName_document _ Rule.contractFile_mem) noContract
    (Text.Utf8.encode starter.contractText.toList)
  have stillNoReadme : (entries ++ [((Path.ofString contractFile).bytes,
      Node.ofText starter.contractText)]).lookup (Path.ofString readmeFile).bytes = none := by
    rw [List.lookup_append, noReadme]
    rfl
  obtain ⟨after, writtenThen, opensAfter⟩ := opensBetween.write
    (Rule.isEntryName_document _ Rule.readmeFile_mem) stillNoReadme
    (Text.Utf8.encode starter.readmeText.toList)
  refine ⟨after, ?_, ?_⟩
  · have writtenContract : Disk.unlimited.write world (contractPath root)
        (Text.Utf8.encode starter.contractText.toList) = (between, .ok ()) :=
      Disk.unlimited_write_ok_iff.2 written
    have writtenReadme : Disk.unlimited.write between (readmePath root)
        (Text.Utf8.encode starter.readmeText.toList) = (after, .ok ()) :=
      Disk.unlimited_write_ok_iff.2 writtenThen
    simp only [files, writeFiles, writtenContract, writtenReadme]
  · rw [List.append_assoc] at opensAfter
    exact opensAfter

/-- A starter that is written is written after the directories of its root are made. -/
theorem writeFiles_of_write {force : Bool} {paths : List Path}
    (written : starter.write world root force = (after, .ok paths)) :
    (world.makeDirs root).2 = .ok () ∧
      writeFiles .unlimited (world.makeDirs root).1 (starter.files root) = (after, .ok paths) := by
  unfold write writeTo at written
  dsimp only [Disk.unlimited_makeDirs] at written
  split at written
  · cases written
  · split at written
    · cases written
    · next made => rw [made]; exact ⟨rfl, written⟩

/-- **A starter that is written adds its entries** to those of a directory where its files were not
there. -/
theorem opensTo_of_write {force : Bool} {paths : List Path}
    (contract : (world.makeDirs root).1.Vacant (contractPath root))
    (readme : (world.makeDirs root).1.Vacant (readmePath root))
    (written : starter.write world root force = (after, .ok paths)) :
    ∃ entries, (world.makeDirs root).1.OpensTo root entries ∧
      after.OpensTo root (entries ++ starter.newEntries) := by
  obtain ⟨-, written⟩ := writeFiles_of_write written
  have isDir : ∃ entries, (world.makeDirs root).1.OpensTo root entries := by
    rw [files, writeFiles] at written
    split at written
    · cases written
    · next between isWritten =>
        exact World.opensTo_of_write (Rule.isEntryName_document _ Rule.contractFile_mem)
          (Disk.unlimited_write_ok_iff.1 isWritten)
  obtain ⟨entries, opens⟩ := isDir
  obtain ⟨other, writtenOther, opensOther⟩ := starter.writeFiles_of_opensTo opens
    ((opens.vacant_iff (Rule.isEntryName_document _ Rule.contractFile_mem)).1 contract)
    ((opens.vacant_iff (Rule.isEntryName_document _ Rule.readmeFile_mem)).1 readme)
  cases writtenOther.symm.trans written
  exact ⟨entries, opens, opensOther⟩

/-- A README has at least the words of its languages. -/
theorem wordCount_languages_le (starter : Starter) :
    Text.wordCount (", ".intercalate starter.languages).toList ≤
      Text.wordCount starter.readmeText.toList := by
  have cut : "- Languages: ".toList = "- Languages:".toList ++ [' '] :=
    String.toList_append (s := "- Languages:") (t := " ")
  unfold readmeText
  simp only [String.toList_append]
  rewrite [cut]
  -- what stands behind the languages takes no word away
  iterate 13 refine Nat.le_trans ?_ (Text.wordCount_le_append _ _)
  rewrite [← List.append_assoc, List.append_assoc _ [' '], List.singleton_append]
  exact Nat.le_trans (Nat.le_add_left _ _)
    (Nat.le_of_eq (Text.wordCountFrom_append_blank false _ _ (by decide)).symm)

/-- **A starter can be written** where neither of its files stands, once there is a directory for
them. -/
theorem write_of_vacant {between : World} (starter : Starter) (force : Bool)
    (contract : world.Vacant (contractPath root)) (readme : world.Vacant (readmePath root))
    (made : world.makeDirs root = (between, .ok ())) (opens : between.OpensTo root entries)
    (noContract : entries.lookup (Path.ofString contractFile).bytes = none)
    (noReadme : entries.lookup (Path.ofString readmeFile).bytes = none) :
    ∃ after, starter.write world root force =
        (after, .ok [contractPath root, readmePath root]) ∧
      after.OpensTo root (entries ++ starter.newEntries) := by
  obtain ⟨after, written, opensAfter⟩ := starter.writeFiles_of_opensTo opens noContract noReadme
  refine ⟨after, ?_, opensAfter⟩
  have noneThere : [contractPath root, readmePath root].find? world.has = none := by
    simp [World.has_of_vacant contract, World.has_of_vacant readme]
  simp only [write, writeTo, Disk.unlimited_makeDirs, noneThere, ite_self, made, written]

/-- The contract of a starter loads as itself, with the line end behind it. -/
theorem loads_contractText (languages : List String) (mode : Mode) (path : Path) :
    (Loaded.ofText path (Starter.ofLanguages languages mode).contractText.toList).problems = [] ∧
      (Loaded.ofText path (Starter.ofLanguages languages mode).contractText.toList).contract =
        some (Starter.ofLanguages languages mode).contract := by
  have blank : ∀ c ∈ ['\n'], Json.isSpace c = true := by
    intro c isEnd
    rw [List.mem_singleton.1 isEnd]
    decide
  have loaded := (Starter.admissible_contract languages mode).loads_render path _ blank
  simpa [Starter.contractText] using loaded

end Starter

end RepoContract
