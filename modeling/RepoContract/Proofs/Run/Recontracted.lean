/-
# RepoContract.Proofs.Run.Recontracted: another contract in the same tree

Two worlds may be the same but for the contract, which is to say but for what the file with the
contract holds (`World.Recontracted`). A run lists the same files in both if it looks for the same
extensions. It reads the same from each of them, unless one is the file with the contract under
another name; that takes a contract behind a link (`World.ContractApart`,
`World.contractApart_of_file`).

The README is there in both or in neither. It may be a link to the contract, and then its words are
those of the contract. They are no more and no fewer when only the mode is written over
(`World.Recontracted.excessWords_eq_of_spelling`).
-/
import RepoContract.Proofs.Run.Sources
import RepoContract.Proofs.Text.Blank
import RepoContract.Proofs.Tree.Overwrite

namespace RepoContract

set_option autoImplicit false

namespace World

variable {world before after : World} {root path : Path} {contract other : Contract}
  {excludes : List String}

/-! ## Worlds with another contract -/

/-- Two worlds that are the same but for what the file with the contract holds, and the contracts
that are loaded from there. -/
structure Recontracted (before after : World) (root : Path) (contract other : Contract) :
    Prop where
  proper : before.root.isProper = true
  written : ∃ bytes, before.write (contractPath root) bytes = .ok after
  loads : (before.loadContract root).contract = some contract
  otherLoads : (after.loadContract root).contract = some other

/-- Worlds that differ in one file alone, in which the contract is found. -/
structure HoldsContract (worldWith : List UInt8 → World) (root : Path) (there : List Name) :
    Prop where
  proper : ∀ bytes, (worldWith bytes).root.isProper = true
  follows : ∀ bytes, (worldWith bytes).locate .follow (contractPath root) = .ok there
  creates : ∀ bytes, (worldWith bytes).locate .create (contractPath root) = .ok there
  isFile : ∀ bytes, (worldWith bytes).root.at? there = some (.file bytes)
  put : ∀ bytes others, (worldWith bytes).put there (.file others) = worldWith others

/-- A text that loads as a contract does so where it holds the contract. -/
theorem HoldsContract.loads {worldWith : List UInt8 → World} {there : List Name} {text : List Char}
    (holds : HoldsContract worldWith root there)
    (isContract : (Loaded.ofText (contractPath root) text).contract = some contract) :
    ((worldWith (Text.Utf8.encode text)).loadContract root).contract = some contract := by
  have reads := read_of_locate (holds.follows _) (holds.isFile (Text.Utf8.encode text))
  rw [loadContract_of_read reads (Text.Utf8.decode?_encode _), isContract]

/-- One contract can be written over another. -/
theorem HoldsContract.recontracted {worldWith : List UInt8 → World} {there : List Name}
    {text otherText : List Char} (holds : HoldsContract worldWith root there)
    (isContract : (Loaded.ofText (contractPath root) text).contract = some contract)
    (isOther : (Loaded.ofText (contractPath root) otherText).contract = some other) :
    (worldWith (Text.Utf8.encode text)).Recontracted (worldWith (Text.Utf8.encode otherText)) root
      contract other where
  proper := holds.proper _
  written := by
    refine ⟨Text.Utf8.encode otherText, ?_⟩
    rw [write, holds.creates]
    simp only [bind, Except.bind, holds.isFile, holds.put]
    rfl
  loads := holds.loads isContract
  otherLoads := holds.loads isOther

theorem Recontracted.rewritten
    (recontracted : before.Recontracted after root contract other) :
    before.Rewritten after (contractPath root) := by
  obtain ⟨_, _, reads, -⟩ := exists_text_of_loads recontracted.loads
  obtain ⟨_, written⟩ := recontracted.written
  exact rewritten_of_write reads written

/-! ## The judged files -/

/-- The files of a scan do not depend on what the files hold. -/
theorem Rewritten.scan_eq (rewritten : before.Rewritten after path) (root : Path)
    (table : LanguageTable) (declared excludes : List String) :
    after.scan root table declared excludes = before.scan root table declared excludes := by
  simp only [scan, rewritten.walk]

/-- No file that a run judges is the one which holds the contract, under another name. -/
def ContractApart (world : World) (root : Path) (languages excludes : List String) : Prop :=
  ∀ files, world.scan root .builtIn languages excludes = .ok files → ∀ path ∈ files.files,
    world.locate .follow path ≠ world.locate .follow (contractPath root)

/-- Where the contract is in a file of its own, another contract finds the same source files. -/
theorem Rewritten.sources_eq (rewritten : before.Rewritten after (contractPath root))
    (apart : before.ContractApart root contract.languages excludes) {files : FileList}
    (lists : before.scan root .builtIn contract.languages excludes = .ok files)
    (other : Contract) :
    Project.sources ⟨after, root, other, files, .builtIn⟩ =
      Project.sources ⟨before, root, contract, files, .builtIn⟩ :=
  Project.sources_congr rfl rfl fun path isListed =>
    rewritten.read path (apart files lists path isListed)

/-- **A contract in a regular file of its own is apart from the judged files**: these are no links
either, and they have other names. -/
theorem contractApart_of_file {entries : List (Name × Node)} {bytes : List UInt8}
    (proper : world.root.isProper = true) (opens : world.OpensTo root entries)
    (isFile : entries.lookup (Path.ofString contractFile).bytes = some (.file bytes))
    (languages excludes : List String) : world.ContractApart root languages excludes := by
  intro files lists path isListed same
  cases isFilter : Eligibility.filter (LanguageTable.builtIn.extensionsFor languages) excludes with
  | error fault => cases lists.symm.trans (scan_of_filter_error isFilter)
  | ok found =>
      cases leads : world.node root with
      | error cause =>
          have missing (tree : Node) : world.node root ≠ .ok tree := by
            rw [leads]
            nofun
          cases lists.symm.trans (scan_of_missing isFilter missing)
          contradiction
      | ok tree =>
          have properTree := isProper_of_node proper leads
          cases lists.symm.trans (scan_of_node isFilter properTree leads)
          obtain ⟨names, isName, rfl⟩ := List.mem_map.1 isListed
          obtain ⟨⟨content, here⟩, isTaken⟩ := (Node.mem_files_iff properTree).1 isName
          obtain ⟨start, located, isTree⟩ := node_eq_ok_iff.1 leads
          obtain ⟨there, follows, isDir⟩ := opens
          have isContract : world.locate .follow (contractPath root) =
              .ok (there ++ [(Path.ofString contractFile).bytes]) :=
            locate_child follows isDir (Rule.isEntryName_document _ Rule.contractFile_mem) isFile
              nofun
          rw [locate_descend located isTree (Node.isProper_at? properTree here).1 here nofun,
            isContract] at same
          rw [locate_of_ne_nil .follow (bytes_ne_nil_of_node leads)] at located
          cases located.symm.trans follows
          -- so the judged file would have the name of the contract
          cases List.append_cancel_left (Except.ok.inj same)
          rw [Filter.takes, Eligibility.includes_document isFilter Rule.contractFile_mem] at isTaken
          contradiction

/-! ## The README -/

/-- A README stays where it is. -/
theorem Rewritten.isSome_readmeWords (rewritten : before.Rewritten after path) (root : Path) :
    (after.readmeWords root).isSome = (before.readmeWords root).isSome := by
  rw [World.isSome_readmeWords, World.isSome_readmeWords, rewritten.isFile]

/-- **A README that is no link keeps its words** when a contract in a regular file is written
over. -/
theorem Rewritten.readmeWords_eq {entries : List (Name × Node)} {bytes : List UInt8}
    (rewritten : before.Rewritten after (contractPath root)) (opens : before.OpensTo root entries)
    (isFile : entries.lookup (Path.ofString contractFile).bytes = some (.file bytes))
    (noLink : ∀ target, entries.lookup (Path.ofString readmeFile).bytes ≠ some (.link target)) :
    after.readmeWords root = before.readmeWords root := by
  obtain ⟨there, follows, isDir⟩ := opens
  have isContract : before.locate .follow (contractPath root) =
      .ok (there ++ [(Path.ofString contractFile).bytes]) :=
    locate_child follows isDir (Rule.isEntryName_document _ Rule.contractFile_mem) isFile nofun
  have isEntry := Rule.isEntryName_document readmeFile Rule.readmeFile_mem
  have differs : before.locate .follow (root.join (Path.ofString readmeFile)) ≠
      before.locate .follow (contractPath root) := by
    rw [isContract]
    cases isReadme : entries.lookup (Path.ofString readmeFile).bytes with
    | none =>
        rw [show before.locate .follow (root.join (Path.ofString readmeFile)) = _ from
          locate_absent follows isDir isEntry isReadme]
        nofun
    | some child =>
        rw [show before.locate .follow (root.join (Path.ofString readmeFile)) = _ from
          locate_child follows isDir isEntry isReadme fun target isLink =>
            noLink target (isReadme.trans (congrArg some isLink))]
        intro same
        have sameName := List.append_cancel_left (Except.ok.inj same)
        revert sameName
        decide +kernel
  rw [readmeWords, readmeWords, readLossy, readLossy, rewritten.read _ differs]

/-- A README keeps its excess of words if the text of the contract keeps its number of words. -/
theorem Recontracted.excessWords_eq {bytes others : List UInt8}
    (recontracted : before.Recontracted after root contract other)
    (reads : before.read (contractPath root) = .ok bytes)
    (readsOthers : after.read (contractPath root) = .ok others)
    (sameCount : Text.wordCount (Text.Utf8.decodeLossy others) =
      Text.wordCount (Text.Utf8.decodeLossy bytes)) :
    after.excessWords root = before.excessWords root := by
  have rewritten := recontracted.rewritten
  have sameWords : after.readmeWords root = before.readmeWords root := by
    rw [readmeWords, readmeWords, readLossy, readLossy]
    by_cases same : before.locate .follow (root.join (Path.ofString readmeFile)) =
        before.locate .follow (contractPath root)
    · -- the README is the contract
      have isContract : before.read (root.join (Path.ofString readmeFile)) = .ok bytes := by
        rw [← reads, read_eq, read_eq, occupantOf?, occupantOf?, same]
      have isOther : after.read (root.join (Path.ofString readmeFile)) = .ok others := by
        rw [← readsOthers, read_eq, read_eq, occupantOf?, occupantOf?, rewritten.locate,
          rewritten.locate, same]
      rw [isContract, isOther]
      exact congrArg some sameCount
    · rw [rewritten.read _ same]
  rw [excessWords, excessWords, sameWords]

/-- In particular it does if the mode is all that is written over. -/
theorem Recontracted.excessWords_eq_of_spelling {front back : List Char}
    (recontracted : before.Recontracted after root contract other)
    (reads : before.read (contractPath root) =
      .ok (Text.Utf8.encode (front ++ ((Spelled.spelling Mode.lite).toList ++ back))))
    (readsOthers : after.read (contractPath root) =
      .ok (Text.Utf8.encode (front ++ ((Spelled.spelling Mode.strict).toList ++ back)))) :
    after.excessWords root = before.excessWords root := by
  have filled (mode : Mode) : (Spelled.spelling mode).toList ≠ [] := by
    cases mode <;> decide
  have visible (mode : Mode) : ∀ c ∈ (Spelled.spelling mode).toList, Text.isBlank c = false := by
    have noBlank : (Spelled.spelling mode).toList.any Text.isBlank = false := by
      cases mode <;> decide
    simpa using noBlank
  refine recontracted.excessWords_eq reads readsOthers ?_
  rw [Text.Utf8.decodeLossy_encode, Text.Utf8.decodeLossy_encode]
  exact Text.wordCountFrom_replace false (filled .strict) (visible .strict) (filled .lite)
    (visible .lite) front back

end World

end RepoContract
