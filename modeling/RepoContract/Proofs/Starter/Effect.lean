/-
# RepoContract.Proofs.Starter.Effect: what writing a starter does to a tree

A starter is written in three steps: the directories of its root are made, then the contract is
written, then the README. A step that fails leaves what the steps before it did, so there are four
ways to end (`Starter.Ends`), and what each leaves of the tree follows from what a step leaves.

With force that is said of any disk that keeps to the tree, whatever makes it fail: a permission,
the room that is left, or what stands in the tree. No step takes back the one before it, so a
starter that fails on the README leaves a new contract behind (`Starter.write_forced`). Where
nothing fails but for what stands in the tree, that takes a directory in the place of the README,
and then what the contract held before is lost (`Starter.write_halfway`).

Without force the documents are looked for before anything is done. There a step fails only for what
stands in the tree. Where making directories brings no document into sight nothing is lost
(`Starter.write_guarded`), but `new/..` leads nowhere at first and afterwards to the directory
above, where both documents are written over (`Starter.write_revealed`).
-/
import RepoContract.Proofs.Starter
import RepoContract.Proofs.Text.Utf8
import RepoContract.Proofs.Tree.Frame

namespace RepoContract

set_option autoImplicit false

namespace World

variable {world after : World} {root : Path}

/-- Making the directories of a root brings none of its documents into sight: one that is found
afterwards was found before. -/
def HidesNone (world : World) (root : Path) : Prop :=
  ∀ after, world.makeDirs root = (after, .ok ()) →
    ∀ path ∈ [contractPath root, Starter.readmePath root],
      after.has path = true → world.has path = true

/-- A root that is a directory hides nothing, and neither does one that does not go up. -/
theorem hidesNone_of_stays (stays : world.isDir root = true ∨ .up ∉ root.moves) :
    world.HidesNone root := by
  intro after makes path isDocument found
  rcases makeDirs_cases stays makes with rfl | opens
  · exact found
  · have vacant : after.Vacant path := by
      rcases List.mem_pair.1 isDocument with rfl | rfl
      · exact (opens.vacant_iff (Rule.isEntryName_document _ Rule.contractFile_mem)).2 rfl
      · exact (opens.vacant_iff (Rule.isEntryName_document _ Rule.readmeFile_mem)).2 rfl
    rw [has_of_vacant vacant] at found
    contradiction

/-- A text that stands in an open directory is read there. -/
theorem OpensTo.readText {entries : List (Name × Node)} {name : Name} {text : String}
    (opens : world.OpensTo root entries) (entry : Path.IsEntryName name)
    (isText : entries.lookup name = some (.ofText text)) :
    world.readText (root.join ⟨name⟩) = .ok text.toList :=
  readText_of_read (opens.read entry isText) (Text.Utf8.decode?_encode _)

end World

namespace Starter

variable {world after between : World} {root : Path} {there : List Name}
  {entries : List (Name × Node)} {starter : Starter}

/-! ## Writing the two files -/

/-- The name of a contract's entry. -/
def contractName : Name := (Path.ofString contractFile).bytes

/-- The name of a README's entry. -/
def readmeName : Name := (Path.ofString readmeFile).bytes

/-- The bytes of a contract's file. -/
def contractBytes (starter : Starter) : List UInt8 := Text.Utf8.encode starter.contractText.toList

/-- The bytes of a README's file. -/
def readmeBytes (starter : Starter) : List UInt8 := Text.Utf8.encode starter.readmeText.toList

theorem decode?_contractBytes (starter : Starter) :
    Text.Utf8.decode? starter.contractBytes = some starter.contractText.toList :=
  Text.Utf8.decode?_encode _

theorem decode?_readmeBytes (starter : Starter) :
    Text.Utf8.decode? starter.readmeBytes = some starter.readmeText.toList :=
  Text.Utf8.decode?_encode _

theorem readmeName_ne : readmeName ≠ contractName := by
  decide +kernel

theorem isEntryName_contract : Path.IsEntryName contractName :=
  Rule.isEntryName_document _ Rule.contractFile_mem

theorem isEntryName_readme : Path.IsEntryName readmeName :=
  Rule.isEntryName_document _ Rule.readmeFile_mem

/-- The world after the contract is written into a directory. -/
def putContract (starter : Starter) (world : World) (there : List Name) : World :=
  world.put (there ++ [contractName]) (.file starter.contractBytes)

/-- The world after the README is written into a directory. -/
def putReadme (starter : Starter) (world : World) (there : List Name) : World :=
  world.put (there ++ [readmeName]) (.file starter.readmeBytes)

section Files

variable {disk : Disk} {cause : SystemFault} (starter : Starter)

/-- The first file cannot be written. -/
theorem writeFiles_of_refused
    (fails : disk.write world (contractPath root) starter.contractBytes = (after, .error cause)) :
    writeFiles disk world (starter.files root) =
      (after, .error (.unwritable (contractPath root) cause)) := by
  rw [contractBytes] at fails
  simp [files, writeFiles, fails]

/-- The second file cannot be written. -/
theorem writeFiles_of_halfway
    (contract : disk.write world (contractPath root) starter.contractBytes = (between, .ok ()))
    (fails : disk.write between (readmePath root) starter.readmeBytes = (after, .error cause)) :
    writeFiles disk world (starter.files root) =
      (after, .error (.unwritable (readmePath root) cause)) := by
  rw [contractBytes] at contract
  rw [readmeBytes] at fails
  simp [files, writeFiles, contract, fails]

/-- Both files are written. -/
theorem writeFiles_of_both
    (contract : disk.write world (contractPath root) starter.contractBytes = (between, .ok ()))
    (readme : disk.write between (readmePath root) starter.readmeBytes = (after, .ok ())) :
    writeFiles disk world (starter.files root) =
      (after, .ok [contractPath root, readmePath root]) := by
  rw [contractBytes] at contract
  rw [readmeBytes] at readme
  simp [files, writeFiles, contract, readme]

/-- A starter is written with force once its directories are made. -/
theorem writeTo_of_makes (makes : disk.makeDirs world root = (between, .ok ())) :
    starter.writeTo disk world root true = writeFiles disk between (starter.files root) := by
  simp [writeTo, makes]

theorem write_of_makes (makes : world.makeDirs root = (between, .ok ())) :
    starter.write world root true = writeFiles .unlimited between (starter.files root) :=
  writeTo_of_makes starter makes

end Files

/-- A directory into which a starter can be written: no link stands in the place of a document, and
no directory in that of the contract. -/
structure Site (world : World) (root : Path) (there : List Name) (entries : List (Name × Node)) :
    Prop where
  contract : world.Spot root contractName there entries
  readmeNoLink : ∀ target, entries.lookup readmeName ≠ some (.link target)

/-- In a tree without links only a directory can stand in the way of the contract. -/
theorem site_of_spot (linkFree : world.root.LinkFree)
    (spot : world.Spot root contractName there entries) : Site world root there entries :=
  ⟨spot, linkFree.lookup_ne spot.isDir readmeName⟩

/-- A text in the place of the contract does not stand in its way. -/
theorem site_of_text {text : String} (linkFree : world.root.LinkFree)
    (leads : world.follow root = .ok there) (isDir : world.root.at? there = some (.dir entries))
    (isText : entries.lookup contractName = some (.ofText text)) :
    Site world root there entries := by
  refine site_of_spot linkFree
    ⟨isEntryName_contract, leads, isDir, linkFree.lookup_ne isDir contractName, ?_⟩
  intro children isContract
  rw [isText] at isContract
  cases isContract

namespace Site

variable (site : Site world root there entries) (starter : Starter)

include site

/-- The contract is written. -/
theorem write_contract : world.write (contractPath root) starter.contractBytes =
    .ok (starter.putContract world there) :=
  site.contract.write_eq starter.contractBytes

/-- Behind the contract the README is written, unless a directory stands in its place. -/
theorem write_readme (bytes : List UInt8) :
    (starter.putContract world there).write (readmePath root) bytes =
      match entries.lookup readmeName with
      | some (.dir _) => .error .isDirectory
      | _ => .ok ((starter.putContract world there).put (there ++ [readmeName]) (.file bytes)) := by
  have unchanged := Node.lookup_setEntry_of_ne (.file starter.contractBytes) entries readmeName_ne
  rw [← unchanged]
  refine World.write_join (site.contract.leads_put _) (site.contract.isDir_put _)
    isEntryName_readme ?_ bytes
  rw [unchanged]
  exact site.readmeNoLink

/-- Where no directory stands in its place, the README has its own. -/
theorem readmeSpot (noDir : ∀ children, entries.lookup readmeName ≠ some (.dir children)) :
    world.Spot root readmeName there entries :=
  ⟨isEntryName_readme, site.contract.leads, site.contract.isDir, site.readmeNoLink, noDir⟩

/-- A directory in the place of the README keeps the README from being written. -/
theorem noDir_of_write {bytes : List UInt8}
    (written : (starter.putContract world there).write (readmePath root) bytes = .ok after) :
    (∀ children, entries.lookup readmeName ≠ some (.dir children)) ∧
      after = (starter.putContract world there).put (there ++ [readmeName]) (.file bytes) := by
  have writes := site.write_readme starter bytes
  rw [written] at writes
  cases isReadme : entries.lookup readmeName with
  | none =>
      rw [isReadme] at writes
      exact ⟨nofun, Except.ok.inj writes⟩
  | some child =>
      rw [isReadme] at writes
      cases child with
      | dir children => cases writes
      | file old | link target => exact ⟨nofun, Except.ok.inj writes⟩

/-- **The files of a starter are written into such a directory**, the README unless a directory
stands in its place. -/
theorem writeFiles_eq :
    writeFiles .unlimited world (starter.files root) =
      match entries.lookup readmeName with
      | some (.dir _) =>
        (starter.putContract world there, .error (.unwritable (readmePath root) .isDirectory))
      | _ =>
        (starter.putReadme (starter.putContract world there) there,
          .ok [contractPath root, readmePath root]) := by
  have contract := Disk.unlimited_write_ok_iff.2 (site.write_contract starter)
  have writes := site.write_readme starter starter.readmeBytes
  cases isReadme : entries.lookup readmeName with
  | none =>
      rw [isReadme] at writes
      exact writeFiles_of_both starter contract (Disk.unlimited_write_ok_iff.2 writes)
  | some child =>
      rw [isReadme] at writes
      cases child with
      | dir children =>
          exact writeFiles_of_halfway starter contract
            (Disk.unlimited_write_error_iff.2 ⟨rfl, writes⟩)
      | file old | link target =>
          exact writeFiles_of_both starter contract (Disk.unlimited_write_ok_iff.2 writes)

/-- The contract stands in its place. -/
theorem at?_putContract : (starter.putContract world there).root.at? (there ++ [contractName]) =
    some (.ofText starter.contractText) :=
  (Node.at?_concat (site.contract.isDir_put _) contractName).trans
    (Node.lookup_setEntry_self contractName _ entries)

/-- Both documents are read as they are written. -/
theorem readText_putReadme (noDir : ∀ children, entries.lookup readmeName ≠ some (.dir children)) :
    (starter.putReadme (starter.putContract world there) there).readText (contractPath root) =
      .ok starter.contractText.toList ∧
    (starter.putReadme (starter.putContract world there) there).readText (readmePath root) =
      .ok starter.readmeText.toList := by
  have leaves : world.Leaves (starter.putReadme (starter.putContract world there) there)
      [(contractPath root, starter.contractBytes), (readmePath root, starter.readmeBytes)] :=
    site.contract.leaves_both (site.readmeSpot noDir) readmeName_ne (.refl _) _ _
  have contract := leaves.reads _ _ List.mem_cons_self
  have readme := leaves.reads _ _ (List.mem_cons_of_mem _ List.mem_cons_self)
  exact ⟨World.readText_of_read contract starter.decode?_contractBytes,
    World.readText_of_read readme starter.decode?_readmeBytes⟩

/-- The contract stands in its place behind the README. -/
theorem at?_putReadme (noDir : ∀ children, entries.lookup readmeName ≠ some (.dir children)) :
    (starter.putReadme (starter.putContract world there) there).root.at?
      (there ++ [contractName]) = some (.ofText starter.contractText) := by
  have second := site.contract.put starter.contractBytes readmeName_ne (site.readmeSpot noDir)
  refine (Node.at?_concat (second.isDir_put starter.readmeBytes) contractName).trans ?_
  exact (Node.lookup_setEntry_of_ne _ _ readmeName_ne.symm).trans
    (Node.lookup_setEntry_self contractName _ entries)

/-- A directory in the place of the README is still there when the contract is written. -/
theorem isDir_readme_putContract {children : List (Name × Node)}
    (isDir : entries.lookup readmeName = some (.dir children)) :
    (starter.putContract world there).isDir (readmePath root) = true := by
  have unchanged := Node.lookup_setEntry_of_ne (.file starter.contractBytes) entries readmeName_ne
  have leads : (starter.putContract world there).node (readmePath root) = .ok (.dir children) := by
    refine (World.node_join (site.contract.leads_put _) (site.contract.isDir_put _)
      isEntryName_readme ?_).trans ?_
    · rw [unchanged]
      exact site.readmeNoLink
    · rw [unchanged, isDir]
  rw [World.isDir, leads]

/-- Where neither document is there, what stands anywhere stands there still. -/
theorem occupantAt?_putReadme {names : List Name} {occupant : Node.Occupant}
    (noContract : entries.lookup contractName = none) (noReadme : entries.lookup readmeName = none)
    (here : world.root.occupantAt? names = some occupant) :
    (starter.putReadme (starter.putContract world there) there).root.occupantAt? names =
      some occupant := by
  refine Node.occupantAt?_put_new _ (site.contract.isDir_put _) ?_ ?_
  · rw [Node.lookup_setEntry_of_ne _ _ readmeName_ne, noReadme]
  · exact Node.occupantAt?_put_new _ site.contract.isDir noContract here

end Site

/-! ## The ways to end -/

/-- The ways in which writing a starter ends that is not refused: its directories cannot be made,
the contract cannot be written, only the contract can be written, or both documents are. -/
inductive Ends (disk : Disk) (starter : Starter) (world : World) (root : Path) :
    World → Except Fault (List Path) → Prop
  | unmade {after : World} {cause : SystemFault}
      (makes : disk.makeDirs world root = (after, .error cause)) :
      Ends disk starter world root after (.error (.unwritable root cause))
  | unwritten {between after : World} {cause : SystemFault}
      (makes : world.makeDirs root = (between, .ok ()))
      (fails : disk.write between (contractPath root) starter.contractBytes =
        (after, .error cause)) :
      Ends disk starter world root after (.error (.unwritable (contractPath root) cause))
  | halfway {between after : World} {there : List Name} {entries : List (Name × Node)}
      {cause : SystemFault} (makes : world.makeDirs root = (between, .ok ()))
      (site : Site between root there entries)
      (fails : disk.write (starter.putContract between there) (readmePath root)
        starter.readmeBytes = (after, .error cause)) :
      Ends disk starter world root after (.error (.unwritable (readmePath root) cause))
  | complete {between : World} {there : List Name} {entries : List (Name × Node)}
      (makes : world.makeDirs root = (between, .ok ())) (site : Site between root there entries)
      (noDir : ∀ children, entries.lookup readmeName ≠ some (.dir children)) :
      Ends disk starter world root (starter.putReadme (starter.putContract between there) there)
        (.ok [contractPath root, readmePath root])

/-- A tree without links has none after directories are made. -/
theorem linkFree_of_makeDirs {made : Except SystemFault Unit} (linkFree : world.root.LinkFree)
    (makes : world.makeDirs root = (between, made)) : between.root.LinkFree :=
  linkFree.withMoreDirs (World.withMoreDirs_of_makeDirs makes)

/-- **In a tree without links writing a starter with force ends in one of these ways**, on any disk
that keeps to the tree. -/
theorem ends_writeTo {disk : Disk} {result : Except Fault (List Path)} (faithful : disk.Faithful)
    (linkFree : world.root.LinkFree)
    (ended : starter.writeTo disk world root true = (after, result)) :
    starter.Ends disk world root after result := by
  rcases makes : disk.makeDirs world root with ⟨between, cause | _⟩
  · simp only [writeTo, if_true, makes] at ended
    cases ended
    exact .unmade makes
  · have made := faithful.makes _ _ _ makes
    have stillFree := linkFree_of_makeDirs linkFree made
    rw [writeTo_of_makes starter makes] at ended
    rcases contract : disk.write between (contractPath root) starter.contractBytes with
      ⟨middle, cause | _⟩
    · cases (writeFiles_of_refused starter contract).symm.trans ended
      exact .unwritten made contract
    · obtain ⟨there, entries, spot, rfl⟩ := World.exists_spot_of_write stillFree
        isEntryName_contract (faithful.writes _ _ _ _ contract)
      have site := site_of_spot stillFree spot
      rcases readme : disk.write (starter.putContract between there) (readmePath root)
        starter.readmeBytes with ⟨last, cause | _⟩
      · cases (writeFiles_of_halfway starter contract readme).symm.trans ended
        exact .halfway made site readme
      · cases (writeFiles_of_both starter contract readme).symm.trans ended
        obtain ⟨noDir, rfl⟩ := site.noDir_of_write starter (faithful.writes _ _ _ _ readme)
        exact .complete made site noDir

/-! ## With force -/

/-- What a forced starter that is not written leaves, by the path on which it failed. -/
inductive LeftBy (starter : Starter) (world : World) (root : Path) (after : World) : Fault → Prop
  /-- Before any file was opened: directories were made at most. -/
  | unopened {path : Path} {cause : SystemFault} (isFirst : path = root ∨ path = contractPath root)
      (more : world.root.WithMoreDirs after.root) :
      LeftBy starter world root after (.unwritable path cause)
  /-- While the contract was written. -/
  | contractCut {front : List UInt8} {cause : SystemFault}
      (isFront : front <+: starter.contractBytes)
      (leaves : world.Leaves after [(contractPath root, front)]) :
      LeftBy starter world root after (.unwritable (contractPath root) cause)
  /-- Behind the contract, before the README was opened. -/
  | readmeRefused {cause : SystemFault}
      (leaves : world.Leaves after [(contractPath root, starter.contractBytes)]) :
      LeftBy starter world root after (.unwritable (readmePath root) cause)
  /-- While the README was written. -/
  | readmeCut {front : List UInt8} {cause : SystemFault} (isFront : front <+: starter.readmeBytes)
      (leaves : world.Leaves after
        [(contractPath root, starter.contractBytes), (readmePath root, front)]) :
      LeftBy starter world root after (.unwritable (readmePath root) cause)

/-- **A forced starter that is not written keeps the contract that it wrote before it failed**, and
touches no file but its own two. What fails before the contract is opened leaves every file as it
was; what fails on the README leaves a new contract behind, whatever it failed for. Where nothing
fails but for what stands in the tree, only a directory in the place of the README comes to this,
and otherwise every file is as it was. -/
theorem write_forced (linkFree : world.root.LinkFree) (starter : Starter) (root : Path) :
    (∀ disk : Disk, disk.Faithful → ∀ after fault,
      starter.writeTo disk world root true = (after, .error fault) →
        starter.LeftBy world root after fault) ∧
    ∀ after fault, starter.write world root true = (after, .error fault) →
      world.root.WithMoreDirs after.root ∨
        fault = .unwritable (readmePath root) .isDirectory ∧
          after.isDir (readmePath root) = true := by
  constructor
  · intro disk faithful after fault failed
    cases ends_writeTo faithful linkFree failed with
    | unmade makes => exact .unopened (.inl rfl) (faithful.stops _ _ _ _ makes)
    | unwritten makes fails =>
        have more := World.withMoreDirs_of_makeDirs makes
        rcases faithful.fails _ _ _ _ _ fails with rfl | ⟨front, isFront, written⟩
        · exact .unopened (.inr rfl) more
        · obtain ⟨there, entries, spot, rfl⟩ := World.exists_spot_of_write
            (linkFree_of_makeDirs linkFree makes) isEntryName_contract written
          exact .contractCut isFront (spot.leaves more front)
    | halfway makes site fails =>
        have more := World.withMoreDirs_of_makeDirs makes
        rcases faithful.fails _ _ _ _ _ fails with rfl | ⟨front, isFront, written⟩
        · exact .readmeRefused (site.contract.leaves more _)
        · obtain ⟨noDir, rfl⟩ := site.noDir_of_write starter written
          exact .readmeCut isFront
            (site.contract.leaves_both (site.readmeSpot noDir) readmeName_ne more _ _)
  · intro after fault failed
    cases ends_writeTo Disk.faithful_unlimited linkFree failed with
    | unmade makes => exact .inl (World.withMoreDirs_of_makeDirs makes)
    | unwritten makes fails =>
        obtain ⟨rfl, -⟩ := Disk.unlimited_write_error_iff.1 fails
        exact .inl (World.withMoreDirs_of_makeDirs makes)
    | halfway makes site fails =>
        obtain ⟨rfl, refused⟩ := Disk.unlimited_write_error_iff.1 fails
        rw [site.write_readme starter] at refused
        split at refused
        · next isDir =>
            cases refused
            exact .inr ⟨rfl, site.isDir_readme_putContract starter isDir⟩
        · cases refused

/-- A project with notes and a guide in it. -/
def guideProject : World :=
  ⟨.ofEntries [("app", .ofEntries [("notes.md", .ofText "Notes"), ("AGENTS.md", .ofText "Guide")])],
    []⟩

/-- That project with a new directory. -/
def guideProjectWithWeb : World :=
  ⟨.ofEntries [("app", .ofEntries [("notes.md", .ofText "Notes"), ("AGENTS.md", .ofText "Guide"),
    ("web", .ofEntries [])])], []⟩

theorem linkFree_guideProject : guideProject.root.LinkFree :=
  Node.linkFree_of_locations (by decide +kernel)

/-- A disk on which one file may not be written. -/
def lockedDisk (locked : Path) : Disk where
  makeDirs := World.makeDirs
  write world path bytes :=
    if path = locked then (world, .error (.code 13)) else Disk.unlimited.write world path bytes

theorem write_locked (locked : Path) (world : World) (bytes : List UInt8) :
    (lockedDisk locked).write world locked bytes = (world, .error (.code 13)) :=
  if_pos rfl

theorem write_lockedDisk {locked path : Path} {bytes : List UInt8} (other : path ≠ locked) :
    (lockedDisk locked).write world path bytes = Disk.unlimited.write world path bytes :=
  if_neg other

theorem faithful_lockedDisk (locked : Path) : (lockedDisk locked).Faithful where
  makes _ _ _ makes := makes
  stops _ _ _ _ makes := World.withMoreDirs_of_makeDirs makes
  writes world path bytes after written := by
    by_cases isLocked : path = locked
    · rw [isLocked, write_locked] at written
      cases written
    · rw [write_lockedDisk isLocked] at written
      exact Disk.faithful_unlimited.writes _ _ _ _ written
  fails world path bytes after cause failed := by
    by_cases isLocked : path = locked
    · rw [isLocked, write_locked] at failed
      cases failed
      exact .inl rfl
    · rw [write_lockedDisk isLocked] at failed
      exact Disk.faithful_unlimited.fails _ _ _ _ _ failed

/-- The path of the guide. -/
def guidePath : Path := readmePath (Path.ofString "app")

/-- A contract is written in front of a guide that may not be written. A directory is made on the
way to a file that is none, and no file is touched. -/
theorem write_forced_guide :
    guideProject.root.LinkFree ∧ (lockedDisk guidePath).Faithful ∧
    (∃ after, standard.writeTo (lockedDisk guidePath) guideProject (Path.ofString "app") true =
        (after, .error (.unwritable guidePath (.code 13))) ∧
      after.root.at? [(Path.ofString "app").bytes, contractName] =
        some (.ofText standard.contractText) ∧
      standard.LeftBy guideProject (Path.ofString "app") after (.unwritable guidePath (.code 13))) ∧
    standard.write guideProject (Path.ofString "app/web/../notes.md/x") true =
      (guideProjectWithWeb,
        .error (.unwritable (Path.ofString "app/web/../notes.md/x") .alreadyExists)) ∧
    guideProject.root.WithMoreDirs guideProjectWithWeb.root := by
  have isHere : guideProject.makeDirs (Path.ofString "app") = (guideProject, .ok ()) := by
    cbv
  have site : Site guideProject (Path.ofString "app") [(Path.ofString "app").bytes]
      [((Path.ofString "notes.md").bytes, .ofText "Notes"), (readmeName, .ofText "Guide")] :=
    site_of_spot linkFree_guideProject
      (World.spot_of_absent isEntryName_contract (by cbv) rfl rfl)
  have contract : (lockedDisk guidePath).write guideProject (contractPath (Path.ofString "app"))
      standard.contractBytes =
        (standard.putContract guideProject [(Path.ofString "app").bytes], .ok ()) := by
    rw [write_lockedDisk (by decide +kernel)]
    exact Disk.unlimited_write_ok_iff.2 (site.write_contract standard)
  have locked : standard.writeTo (lockedDisk guidePath) guideProject (Path.ofString "app") true =
      (standard.putContract guideProject [(Path.ofString "app").bytes],
        .error (.unwritable guidePath (.code 13))) :=
    (writeTo_of_makes standard isHere).trans
      (writeFiles_of_halfway standard contract (write_locked _ _ _))
  have makes : guideProject.makeDirs (Path.ofString "app/web/../notes.md/x") =
      (guideProjectWithWeb, .error .alreadyExists) := by
    cbv
  have failed : standard.write guideProject (Path.ofString "app/web/../notes.md/x") true =
      (guideProjectWithWeb,
        .error (.unwritable (Path.ofString "app/web/../notes.md/x") .alreadyExists)) := by
    simp only [write, writeTo, if_true, Disk.unlimited_makeDirs, makes]
  refine ⟨linkFree_guideProject, faithful_lockedDisk _, ⟨_, locked, site.at?_putContract standard,
    (write_forced linkFree_guideProject standard _).1 _ (faithful_lockedDisk _) _ _ locked⟩,
    failed, ?_⟩
  rcases (write_forced linkFree_guideProject standard _).2 _ _ failed with more | ⟨isReadme, -⟩
  · exact more
  · exact absurd (Fault.unwritable.inj isReadme).2 (by decide)

/-- A project in which a directory stands in the place of the README. -/
def halfwayProject : World :=
  ⟨.ofEntries [(contractFile, .ofText "{}"), (readmeFile, .ofEntries [])], []⟩

theorem linkFree_halfwayProject : halfwayProject.root.LinkFree :=
  Node.linkFree_of_locations (by decide +kernel)

/-- **A directory in the place of the README costs the contract.** The starter is not written, and
what the contract held is lost. -/
theorem write_halfway :
    halfwayProject.root.LinkFree ∧
    ∃ after, standard.write halfwayProject (Path.ofString ".") true =
        (after, .error (.unwritable (readmePath (Path.ofString ".")) .isDirectory)) ∧
      halfwayProject.root.at? [contractName] = some (.ofText "{}") ∧
      after.root.at? [contractName] = some (.ofText standard.contractText) ∧
      standard.contractText ≠ "{}" := by
  have makes : halfwayProject.makeDirs (Path.ofString ".") = (halfwayProject, .ok ()) := by
    cbv
  have isContract : [(contractName, Node.ofText "{}"), (readmeName, .dir [])].lookup contractName =
      some (.ofText "{}") := rfl
  have isReadme : [(contractName, Node.ofText "{}"), (readmeName, .dir [])].lookup readmeName =
      some (.dir []) := rfl
  have site : Site halfwayProject (Path.ofString ".") []
      [(contractName, .ofText "{}"), (readmeName, .dir [])] :=
    site_of_text linkFree_halfwayProject (by cbv) rfl isContract
  refine ⟨linkFree_halfwayProject, standard.putContract halfwayProject [], ?_, rfl,
    site.at?_putContract standard, by decide +kernel⟩
  rw [write_of_makes standard makes, site.writeFiles_eq, isReadme]

/-! ## Without force -/

/-- What is said of a document that is there already. -/
def refusal (path : Path) : Fault :=
  .contract (path.display ++ " already exists. Use --force to overwrite.")

theorem write_of_found {path : Path} (starter : Starter)
    (found : [contractPath root, readmePath root].find? world.has = some path) :
    starter.write world root false = (world, .error (refusal path)) := by
  simp [write, writeTo, found, refusal]

theorem write_of_none (starter : Starter)
    (noneFound : [contractPath root, readmePath root].find? world.has = none) :
    starter.write world root false = starter.write world root true := by
  simp [write, writeTo, noneFound]

/-- What it means that nothing is lost where a starter is written without force. -/
structure Guarded (starter : Starter) (world : World) (root : Path) : Prop where
  /-- A contract is not written over. -/
  contract : world.has (contractPath root) = true →
    starter.write world root false = (world, .error (refusal (contractPath root)))
  /-- Neither is a README. -/
  readme : world.has (contractPath root) = false → world.has (readmePath root) = true →
    starter.write world root false = (world, .error (refusal (readmePath root)))
  /-- A starter that is not written makes directories at most. -/
  failed : ∀ after fault, starter.write world root false = (after, .error fault) →
    world.root.WithMoreDirs after.root
  /-- It is written where neither document is found, once there is a directory for it. -/
  succeeds : world.has (contractPath root) = false → world.has (readmePath root) = false →
    root.bytes ≠ [] → ∀ between, world.makeDirs root = (between, .ok ()) →
      ∃ after, starter.write world root false =
        (after, .ok [contractPath root, readmePath root])
  /-- One that is written can be read, and all files that were there are as they were. -/
  written : ∀ after paths, starter.write world root false = (after, .ok paths) →
    paths = [contractPath root, readmePath root] ∧
    after.readText (contractPath root) = .ok starter.contractText.toList ∧
    after.readText (readmePath root) = .ok starter.readmeText.toList ∧
    ∀ names bytes, world.root.at? names = some (.file bytes) →
      after.root.at? names = some (.file bytes)
  /-- No starter is written where one was written. -/
  again : ∀ after paths (other : Starter), starter.write world root false = (after, .ok paths) →
    other.write after root false = (after, .error (refusal (contractPath root)))

/-- Where no document was found and none is brought into sight, none is there. -/
theorem absent_of_none (linkFree : world.root.LinkFree) (hides : world.HidesNone root)
    (makes : world.makeDirs root = (between, .ok ()))
    (noneFound : [contractPath root, readmePath root].find? world.has = none)
    (leads : between.follow root = .ok there)
    (isDir : between.root.at? there = some (.dir entries)) :
    entries.lookup contractName = none ∧ entries.lookup readmeName = none := by
  have notThere : ∀ path ∈ [contractPath root, readmePath root], between.has path = false := by
    intro path isDocument
    by_contra isThere
    rw [Bool.not_eq_false] at isThere
    exact List.find?_eq_none.1 noneFound path isDocument
      (hides between makes path isDocument isThere)
  have noLink := (linkFree_of_makeDirs linkFree makes).lookup_ne isDir
  have contract := World.has_join leads isDir isEntryName_contract (noLink contractName)
  have readme := World.has_join leads isDir isEntryName_readme (noLink readmeName)
  constructor
  · rw [← Option.not_isSome_iff_eq_none, ← contract, Bool.not_eq_true]
    exact notThere (contractPath root) List.mem_cons_self
  · rw [← Option.not_isSome_iff_eq_none, ← readme, Bool.not_eq_true]
    exact notThere (readmePath root) (List.mem_cons_of_mem _ (List.mem_singleton_self _))

/-- A starter that is written without force stands there with all files that were there. -/
theorem written_of_write {paths : List Path} (linkFree : world.root.LinkFree)
    (hides : world.HidesNone root) (written : starter.write world root false = (after, .ok paths)) :
    paths = [contractPath root, readmePath root] ∧
    after.readText (contractPath root) = .ok starter.contractText.toList ∧
    after.readText (readmePath root) = .ok starter.readmeText.toList ∧
    ∀ names bytes, world.root.at? names = some (.file bytes) →
      after.root.at? names = some (.file bytes) := by
  cases found : [contractPath root, readmePath root].find? world.has with
  | some path =>
      rw [write_of_found starter found] at written
      cases written
  | none =>
      rw [write_of_none starter found] at written
      cases ends_writeTo Disk.faithful_unlimited linkFree written with
      | complete makes site noDir =>
          have more := World.withMoreDirs_of_makeDirs makes
          obtain ⟨noContract, noReadme⟩ :=
            absent_of_none linkFree hides makes found site.contract.leads site.contract.isDir
          obtain ⟨contract, readme⟩ := site.readText_putReadme starter noDir
          refine ⟨rfl, contract, readme, fun names bytes isFile => ?_⟩
          rw [← more.files, ← Node.occupantAt?_eq_file_iff] at isFile
          rw [← Node.occupantAt?_eq_file_iff]
          exact site.occupantAt?_putReadme starter noContract noReadme isFile

/-- **Writing a starter without force loses nothing** where making directories brings no document
into sight. Everything is permitted here and nothing runs out: on a disk that fails on the README
for another reason than the tree, the contract stays behind. -/
theorem write_guarded (linkFree : world.root.LinkFree) (hides : world.HidesNone root)
    (starter : Starter) : starter.Guarded world root := by
  constructor
  case contract =>
    intro isThere
    exact write_of_found starter (List.find?_cons_of_pos isThere)
  case readme =>
    intro noContract isThere
    refine write_of_found starter ?_
    rw [List.find?_cons_of_neg (by simp [noContract])]
    exact List.find?_cons_of_pos isThere
  case failed =>
    intro after fault failed
    cases found : [contractPath root, readmePath root].find? world.has with
    | some path =>
        rw [write_of_found starter found] at failed
        cases failed
        exact .refl _
    | none =>
        rw [write_of_none starter found] at failed
        cases ends_writeTo Disk.faithful_unlimited linkFree failed with
        | unmade makes => exact World.withMoreDirs_of_makeDirs makes
        | unwritten makes fails =>
            rw [(Disk.unlimited_write_error_iff.1 fails).1]
            exact World.withMoreDirs_of_makeDirs makes
        | halfway makes site fails =>
            -- no README is there, so nothing keeps it from being written
            have absent := (absent_of_none linkFree hides makes found site.contract.leads
              site.contract.isDir).2
            have writes := site.write_readme starter starter.readmeBytes
            rw [absent] at writes
            cases writes.symm.trans (Disk.unlimited_write_error_iff.1 fails).2
  case succeeds =>
    intro noContract noReadme filled between makes
    have noneFound : [contractPath root, readmePath root].find? world.has = none := by
      simp [noContract, noReadme]
    obtain ⟨entries, there, leads, isDir⟩ := World.exists_opensTo_of_makeDirs filled makes
    obtain ⟨contract, readme⟩ := absent_of_none linkFree hides makes noneFound leads isDir
    obtain ⟨after, written, -⟩ :=
      starter.writeFiles_of_opensTo ⟨there, leads, isDir⟩ contract readme
    rw [write_of_none starter noneFound, write_of_makes starter makes]
    exact ⟨after, written⟩
  case written =>
    intro after paths written
    exact written_of_write linkFree hides written
  case again =>
    intro after paths other written
    obtain ⟨-, reads, -⟩ := written_of_write linkFree hides written
    exact write_of_found other (List.find?_cons_of_pos (World.has_of_readText reads))

/-- A starter in a new directory beside a guide; a second one is refused, and so is one in the place
of the guide. -/
theorem write_guarded_guide :
    guideProject.root.LinkFree ∧ guideProject.HidesNone (Path.ofString "app/web") ∧
    guideProject.HidesNone (Path.ofString "app") ∧
    (∃ after, standard.write guideProject (Path.ofString "app/web") false =
        (after, .ok [contractPath (Path.ofString "app/web"), readmePath (Path.ofString "app/web")]) ∧
      after.readText (contractPath (Path.ofString "app/web")) =
        .ok standard.contractText.toList ∧
      after.root.at? [(Path.ofString "app").bytes, readmeName] = some (.ofText "Guide") ∧
      (ofLanguages ["go"] .lite).write after (Path.ofString "app/web") false = (after,
        .error (.contract "app/web/.aocs.json already exists. Use --force to overwrite."))) ∧
    standard.write guideProject (Path.ofString "app") false = (guideProject,
      .error (.contract "app/AGENTS.md already exists. Use --force to overwrite.")) := by
  have hidesWeb : guideProject.HidesNone (Path.ofString "app/web") :=
    World.hidesNone_of_stays (.inr (by decide +kernel))
  have hidesApp : guideProject.HidesNone (Path.ofString "app") :=
    World.hidesNone_of_stays (.inr (by decide +kernel))
  have makes : guideProject.makeDirs (Path.ofString "app/web") = (guideProjectWithWeb, .ok ()) := by
    cbv
  have guardedWeb := write_guarded linkFree_guideProject hidesWeb standard
  have guardedApp := write_guarded linkFree_guideProject hidesApp standard
  obtain ⟨after, written⟩ :=
    guardedWeb.succeeds (by cbv) (by cbv) (by decide +kernel) _ makes
  obtain ⟨-, reads, -, kept⟩ := guardedWeb.written _ _ written
  refine ⟨linkFree_guideProject, hidesWeb, hidesApp,
    ⟨after, written, reads, kept _ _ rfl, ?_⟩, ?_⟩
  · have said : refusal (contractPath (Path.ofString "app/web")) =
        .contract "app/web/.aocs.json already exists. Use --force to overwrite." := by
      decide +kernel
    rw [guardedWeb.again _ _ _ written, said]
  · have said : refusal (readmePath (Path.ofString "app")) =
        .contract "app/AGENTS.md already exists. Use --force to overwrite." := by
      decide +kernel
    rw [guardedApp.readme (by cbv) (by cbv), said]

/-- A project with a contract that is claimed already. -/
def claimedProject : World :=
  ⟨.ofEntries [(contractFile, .ofText "{}")], []⟩

/-- That project with a new directory beside the contract. -/
def claimedProjectWithNew : World :=
  ⟨.ofEntries [(contractFile, .ofText "{}"), ("new", .ofEntries [])], []⟩

theorem linkFree_claimedProject : claimedProject.root.LinkFree :=
  Node.linkFree_of_locations (by decide +kernel)

/-- **A document that comes into sight is written over**, also without force. -/
theorem write_revealed :
    claimedProject.root.LinkFree ∧ ¬ standard.Guarded claimedProject (Path.ofString "new/..") ∧
    ∃ after, standard.write claimedProject (Path.ofString "new/..") false =
        (after, .ok [contractPath (Path.ofString "new/.."), readmePath (Path.ofString "new/..")]) ∧
      claimedProject.root.at? [contractName] = some (.ofText "{}") ∧
      after.root.at? [contractName] = some (.ofText standard.contractText) ∧
      standard.contractText ≠ "{}" := by
  have makes : claimedProject.makeDirs (Path.ofString "new/..") =
      (claimedProjectWithNew, .ok ()) := by
    cbv
  have noneFound : [contractPath (Path.ofString "new/.."),
      readmePath (Path.ofString "new/..")].find? claimedProject.has = none := by
    cbv
  have isContract : [(contractName, Node.ofText "{}"), ((Path.ofString "new").bytes, .dir [])].lookup
      contractName = some (.ofText "{}") := rfl
  have noReadme : [(contractName, Node.ofText "{}"), ((Path.ofString "new").bytes, .dir [])].lookup
      readmeName = none := rfl
  have site : Site claimedProjectWithNew (Path.ofString "new/..") []
      [(contractName, .ofText "{}"), ((Path.ofString "new").bytes, .dir [])] :=
    site_of_text (linkFree_of_makeDirs linkFree_claimedProject makes) (by cbv) rfl isContract
  have differs : standard.contractText ≠ "{}" := by decide +kernel
  have written := write_of_none standard noneFound
  rw [write_of_makes standard makes, site.writeFiles_eq, noReadme] at written
  have isThere := site.at?_putReadme standard (by simp [noReadme])
  refine ⟨linkFree_claimedProject, fun guarded => ?_, _, written, rfl, isThere, differs⟩
  obtain ⟨-, -, -, kept⟩ := guarded.written _ _ written
  have same := isThere.symm.trans (kept [contractName] (Text.Utf8.encode "{}".toList) rfl)
  exact absurd (Node.file.inj (Option.some.inj same)) (by decide +kernel)

end Starter

end RepoContract
