/-
# RepoContract.Proofs.Tree.Disk: what a disk leaves where it fails

A disk on which more can fail than a tree tells is asked for two things only (`Disk.Faithful`):
where an operation goes well it does what it does in the tree, and where it fails it leaves no more
than it was on the way to. Directories may have been made, and a file that was opened may hold the
front of what was to be written. The disk on which nothing else fails is one of them
(`Disk.faithful_unlimited`).

Where a file is written, at a name in a directory with no link and no directory in its place
(`World.Spot`), it is read as it was written and everything elsewhere is as it was. So a file that
was written and one that was cut short are told in the same words (`World.Leaves`).
-/
import RepoContract.Proofs.Tree.Frame

namespace RepoContract

set_option autoImplicit false

/-! ## Disks -/

namespace Disk

variable {world after : World} {path : Path} {bytes : List UInt8} {cause : SystemFault}

/-- A disk that keeps to the tree: what goes well is done as it is done there, and what fails was
refused or stopped on the way. -/
structure Faithful (disk : Disk) : Prop where
  makes : ∀ world path after, disk.makeDirs world path = (after, .ok ()) →
    world.makeDirs path = (after, .ok ())
  stops : ∀ world path after cause, disk.makeDirs world path = (after, .error cause) →
    world.root.WithMoreDirs after.root
  writes : ∀ world path bytes after, disk.write world path bytes = (after, .ok ()) →
    world.write path bytes = .ok after
  /-- A write is refused when the file is opened, or it is cut short. -/
  fails : ∀ world path bytes after cause, disk.write world path bytes = (after, .error cause) →
    after = world ∨ ∃ front, front <+: bytes ∧ world.write path front = .ok after

@[simp]
theorem unlimited_makeDirs (world : World) (path : Path) :
    unlimited.makeDirs world path = world.makeDirs path :=
  rfl

theorem unlimited_write_ok_iff :
    unlimited.write world path bytes = (after, .ok ()) ↔ world.write path bytes = .ok after := by
  simp only [unlimited]
  cases world.write path bytes <;> simp

theorem unlimited_write_error_iff :
    unlimited.write world path bytes = (after, .error cause) ↔
      after = world ∧ world.write path bytes = .error cause := by
  simp only [unlimited]
  cases world.write path bytes <;> simp [eq_comm]

theorem faithful_unlimited : unlimited.Faithful where
  makes _ _ _ makes := makes
  stops _ _ _ _ makes := World.withMoreDirs_of_makeDirs makes
  writes _ _ _ _ writes := unlimited_write_ok_iff.1 writes
  fails _ _ _ _ _ fails := .inl (unlimited_write_error_iff.1 fails).1

end Disk

/-! ## Files that are written -/

namespace World

variable {world after : World} {root : Path} {there : List Name} {name other : Name}
  {entries : List (Name × Node)}

/-- A name in a directory to which a path leads, with no link and no directory in its place. -/
structure Spot (world : World) (root : Path) (name : Name) (there : List Name)
    (entries : List (Name × Node)) : Prop where
  entry : Path.IsEntryName name
  leads : world.follow root = .ok there
  isDir : world.root.at? there = some (.dir entries)
  noLink : ∀ target, entries.lookup name ≠ some (.link target)
  noDir : ∀ children, entries.lookup name ≠ some (.dir children)

/-- A name that is not taken. -/
theorem spot_of_absent (entry : Path.IsEntryName name) (leads : world.follow root = .ok there)
    (isDir : world.root.at? there = some (.dir entries)) (absent : entries.lookup name = none) :
    world.Spot root name there entries :=
  ⟨entry, leads, isDir, by simp [absent], by simp [absent]⟩

/-- In a tree without links a file is written at such a name. -/
theorem exists_spot_of_write {bytes : List UInt8} (linkFree : world.root.LinkFree)
    (entry : Path.IsEntryName name) (written : world.write (root.join ⟨name⟩) bytes = .ok after) :
    ∃ there entries, world.Spot root name there entries ∧
      after = world.put (there ++ [name]) (.file bytes) := by
  obtain ⟨entries, there, leads, isDir⟩ := opensTo_of_write entry written
  have noLink := linkFree.lookup_ne isDir name
  have writes := write_join leads isDir entry noLink bytes
  rw [written] at writes
  cases isChild : entries.lookup name with
  | none =>
      rw [isChild] at writes
      exact ⟨there, entries, spot_of_absent entry leads isDir isChild, Except.ok.inj writes⟩
  | some child =>
      rw [isChild] at writes
      cases child with
      | dir children => cases writes
      | file old =>
          exact ⟨there, entries, ⟨entry, leads, isDir, noLink, by simp [isChild]⟩,
            Except.ok.inj writes⟩
      | link target => exact absurd isChild (noLink target)

namespace Spot

variable (spot : world.Spot root name there entries) (bytes : List UInt8)

include spot

theorem write_eq : world.write (root.join ⟨name⟩) bytes =
    .ok (world.put (there ++ [name]) (.file bytes)) := by
  refine (write_join spot.leads spot.isDir spot.entry spot.noLink bytes).trans ?_
  split
  · next isDir => exact absurd isDir (spot.noDir _)
  · rfl

theorem isDir_put : (world.put (there ++ [name]) (.file bytes)).root.at? there =
    some (.dir (Node.setEntry name (.file bytes) entries)) :=
  Node.at?_put _ _ spot.isDir

theorem leads_put : (world.put (there ++ [name]) (.file bytes)).follow root = .ok there :=
  follow_write spot.isDir spot.noLink spot.noDir _ spot.leads

/-- The file is read as it is written. -/
theorem read_put : (world.put (there ++ [name]) (.file bytes)).read (root.join ⟨name⟩) =
    .ok bytes :=
  OpensTo.read ⟨there, spot.leads_put bytes, spot.isDir_put bytes⟩ spot.entry
    (Node.lookup_setEntry_self name _ entries)

theorem locate_put : (world.put (there ++ [name]) (.file bytes)).locate .follow
    (root.join ⟨name⟩) = .ok (there ++ [name]) :=
  locate_child (spot.leads_put bytes) (spot.isDir_put bytes) spot.entry
    (Node.lookup_setEntry_self name _ entries) nofun

/-- Nothing changes anywhere else. -/
theorem occupantAt?_put {names : List Name} (elsewhere : names ≠ there ++ [name]) :
    (world.put (there ++ [name]) (.file bytes)).root.occupantAt? names =
      world.root.occupantAt? names :=
  Node.occupantAt?_put_file spot.isDir spot.noDir elsewhere

/-- A name that stands apart is a spot afterwards if it was one. -/
theorem put (differs : other ≠ name) (further : world.Spot root other there entries) :
    (world.put (there ++ [name]) (.file bytes)).Spot root other there
      (Node.setEntry name (.file bytes) entries) where
  entry := further.entry
  leads := spot.leads_put bytes
  isDir := spot.isDir_put bytes
  noLink target := by
    rw [Node.lookup_setEntry_of_ne _ entries differs]
    exact further.noLink target
  noDir children := by
    rw [Node.lookup_setEntry_of_ne _ entries differs]
    exact further.noDir children

end Spot

/-! ## What is left -/

/-- What is left when some documents were written over: each is read as it was written, and every
file elsewhere is the one that was there. -/
structure Leaves (before after : World) (documents : List (Path × List UInt8)) : Prop where
  reads : ∀ path bytes, (path, bytes) ∈ documents → after.read path = .ok bytes
  others : ∀ names, (∀ path bytes, (path, bytes) ∈ documents →
      after.locate .follow path ≠ .ok names) →
    ∀ bytes, after.root.at? names = some (.file bytes) ↔ before.root.at? names = some (.file bytes)

/-- One document, behind directories that were made for it. -/
theorem Spot.leaves {before : World} (spot : world.Spot root name there entries)
    (more : before.root.WithMoreDirs world.root) (bytes : List UInt8) :
    before.Leaves (world.put (there ++ [name]) (.file bytes)) [(root.join ⟨name⟩, bytes)] where
  reads path content isDocument := by
    cases List.mem_singleton.1 isDocument
    exact spot.read_put bytes
  others names elsewhere content := by
    have notThere : names ≠ there ++ [name] := by
      rintro rfl
      exact elsewhere _ _ List.mem_cons_self (spot.locate_put bytes)
    rw [← more.files names content, ← Node.occupantAt?_eq_file_iff, ← Node.occupantAt?_eq_file_iff,
      spot.occupantAt?_put bytes notThere]

/-- Two documents, one after the other in one directory. -/
theorem Spot.leaves_both {before : World} (spot : world.Spot root name there entries)
    (further : world.Spot root other there entries) (differs : other ≠ name)
    (more : before.root.WithMoreDirs world.root) (bytes otherBytes : List UInt8) :
    before.Leaves
      ((world.put (there ++ [name]) (.file bytes)).put (there ++ [other]) (.file otherBytes))
      [(root.join ⟨name⟩, bytes), (root.join ⟨other⟩, otherBytes)] := by
  have second := spot.put bytes differs further
  have isFirst : (Node.setEntry other (.file otherBytes)
      (Node.setEntry name (.file bytes) entries)).lookup name = some (.file bytes) := by
    rw [Node.lookup_setEntry_of_ne _ _ differs.symm, Node.lookup_setEntry_self]
  have leads := second.leads_put otherBytes
  have isDir := second.isDir_put otherBytes
  constructor
  · intro path content isDocument
    rcases List.mem_pair.1 isDocument with same | same <;> cases same
    · exact OpensTo.read ⟨there, leads, isDir⟩ spot.entry isFirst
    · exact second.read_put otherBytes
  · intro names elsewhere content
    have notFirst : names ≠ there ++ [name] := by
      rintro rfl
      exact elsewhere _ _ List.mem_cons_self (locate_child leads isDir spot.entry isFirst nofun)
    have notSecond : names ≠ there ++ [other] := by
      rintro rfl
      exact elsewhere _ _ (List.mem_cons_of_mem _ List.mem_cons_self)
        (second.locate_put otherBytes)
    rw [← more.files names content, ← Node.occupantAt?_eq_file_iff, ← Node.occupantAt?_eq_file_iff,
      second.occupantAt?_put otherBytes notSecond, spot.occupantAt?_put bytes notFirst]

end World

end RepoContract
