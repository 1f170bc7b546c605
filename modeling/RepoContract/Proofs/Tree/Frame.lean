/-
# RepoContract.Proofs.Tree.Frame: what changes to a tree leave as it is

Making directories adds directories to a tree and does nothing else to it, whether it succeeds or
stops half-way (`World.withMoreDirs_of_makeDirs`), so the files are the same as before and a tree
without links has none afterwards. A file that is written where no link and no directory stands
leads no path astray that led somewhere (`World.follow_write`).
-/
import RepoContract.Proofs.Tree.Overwrite

namespace RepoContract

set_option autoImplicit false

namespace Node

variable {before between after root : Node} {there : List Name} {name : Name}
  {entries : List (Name × Node)}

/-! ## More directories -/

/-- Directories were added to a tree: what stood anywhere stands there still, and what is new is a
directory. -/
def WithMoreDirs (before after : Node) : Prop :=
  ∀ names, after.occupantAt? names = before.occupantAt? names ∨
    before.occupantAt? names = none ∧ after.occupantAt? names = some .dir

theorem WithMoreDirs.refl (root : Node) : root.WithMoreDirs root :=
  fun _ => .inl rfl

theorem WithMoreDirs.trans (first : before.WithMoreDirs between)
    (second : between.WithMoreDirs after) : before.WithMoreDirs after := by
  intro names
  rcases first names with firstSame | ⟨wasFree, isDir⟩
  · rw [← firstSame]
    exact second names
  · rcases second names with secondSame | ⟨stillFree, -⟩
    · exact .inr ⟨wasFree, secondSame.trans isDir⟩
    · rw [isDir] at stillFree
      contradiction

/-- **The files are those that were there**, with what they held. -/
theorem WithMoreDirs.files (more : before.WithMoreDirs after) (names : List Name)
    (bytes : List UInt8) :
    after.at? names = some (.file bytes) ↔ before.at? names = some (.file bytes) := by
  rw [← occupantAt?_eq_file_iff, ← occupantAt?_eq_file_iff]
  rcases more names with same | ⟨wasFree, isDir⟩
  · rw [same]
  · rw [wasFree, isDir]
    simp

/-- An empty directory in a free place is one more directory. -/
theorem withMoreDirs_put (isDir : root.at? there = some (.dir entries))
    (absent : entries.lookup name = none) :
    root.WithMoreDirs (put (.dir []) (there ++ [name]) root) := by
  intro names
  by_cases isBelow : there ++ [name] <+: names
  · have wasFree := occupantAt?_below_absent isDir absent isBelow
    obtain ⟨below, rfl⟩ := isBelow
    rw [wasFree, occupantAt?_put_below _ name isDir]
    cases below with
    | nil => exact .inr ⟨rfl, rfl⟩
    | cons first rest => exact .inl rfl
  · exact .inl (occupantAt?_put_elsewhere _ isDir isBelow)

/-! ## No links -/

/-- No link stands in a tree. -/
def LinkFree (root : Node) : Prop :=
  ∀ names target, root.at? names ≠ some (.link target)

/-- Whether a node is a link. -/
def isLink : Node → Bool
  | .link _ => true
  | .file _ | .dir _ => false

/-- A tree is searched for links at the locations at which anything stands. -/
theorem linkFree_of_locations
    (none : ∀ names ∈ root.locations, (root.at? names).any isLink = false) : root.LinkFree := by
  intro names target isLink
  have found := none names (mem_locations isLink)
  rw [isLink] at found
  contradiction

theorem LinkFree.occupantAt?_ne (linkFree : root.LinkFree) (names : List Name) (target : Path) :
    root.occupantAt? names ≠ some (.link target) := by
  intro isLink
  obtain ⟨found, isFound, same⟩ := Option.map_eq_some_iff.1 isLink
  cases found with
  | file bytes | dir entries => contradiction
  | link other => exact linkFree names other isFound

theorem LinkFree.lookup_ne (linkFree : root.LinkFree) (isDir : root.at? there = some (.dir entries))
    (name : Name) (target : Path) : entries.lookup name ≠ some (.link target) := by
  rw [← at?_concat isDir]
  exact linkFree _ target

theorem LinkFree.withMoreDirs (linkFree : before.LinkFree) (more : before.WithMoreDirs after) :
    after.LinkFree := by
  intro names target isLink
  have isOccupant : after.occupantAt? names = some (.link target) := occupantAt?_of_at? isLink
  rcases more names with same | ⟨-, isDir⟩
  · exact linkFree.occupantAt?_ne names target (same ▸ isOccupant)
  · rw [isDir] at isOccupant
    simp at isOccupant

end Node

namespace World

variable {world after : World} {path : Path} {there : List Name} {name : Name}
  {entries : List (Name × Node)}

/-! ## Making directories -/

/-- One directory is made where nothing was. -/
theorem withMoreDirs_makeDir (made : world.makeDir path = .ok after) :
    world.root.WithMoreDirs after.root := by
  obtain ⟨-, -, name, there, entries, -, -, isDir, absent, rfl⟩ := exists_of_makeDir made
  exact Node.withMoreDirs_put isDir absent

/-- Going up and down again, also where it fails on the way, makes directories and nothing else. -/
theorem withMoreDirs_makeDirsFrom (count : Nat) (world : World) (path : Path) :
    world.root.WithMoreDirs (makeDirsFrom count world path).1.root := by
  induction count generalizing world path with
  | zero =>
      unfold makeDirsFrom
      split
      · exact .refl _
      · split
        · next made => exact withMoreDirs_makeDir made
        · split <;> exact .refl _
  | succ count ih =>
      unfold makeDirsFrom
      split
      · exact .refl _
      · split
        · next made => exact withMoreDirs_makeDir made
        · split
          · split
            · next left parent isMore isParent =>
                cases isMore
                have above := ih world parent
                split
                · next isAbove =>
                    rw [isAbove] at above
                    exact above
                · next isAbove =>
                    rw [isAbove] at above
                    split
                    · next made => exact above.trans (withMoreDirs_makeDir made)
                    · exact above
            · exact .refl _
          · exact .refl _

/-- **Making directories adds directories and changes nothing else**, however it ends. -/
theorem withMoreDirs_of_makeDirs {made : Except SystemFault Unit}
    (makes : world.makeDirs path = (after, made)) : world.root.WithMoreDirs after.root := by
  have more := withMoreDirs_makeDirsFrom path.components.length world path
  rw [makeDirs] at makes
  rw [makes] at more
  exact more

/-! ## Writing files -/

/-- A path that led somewhere leads there after a file is written. -/
theorem follow_write {found : List Name} (isDir : world.root.at? there = some (.dir entries))
    (noLink : ∀ target, entries.lookup name ≠ some (.link target))
    (noDir : ∀ children, entries.lookup name ≠ some (.dir children)) (bytes : List UInt8)
    (leads : world.follow path = .ok found) :
    (world.put (there ++ [name]) (.file bytes)).follow path = .ok found := by
  cases isChild : entries.lookup name with
  | none => exact follow_put _ isDir isChild leads
  | some child =>
      cases child with
      | dir children => exact absurd isChild (noDir children)
      | link target => exact absurd isChild (noLink target)
      | file old =>
          have isFile : world.root.at? (there ++ [name]) = some (.file old) := by
            rw [Node.at?_concat isDir, isChild]
          rw [follow, ← locateFrom_shape] at leads ⊢
          exact (congrArg (locateFrom · _ _ _ _) (Node.shape_put isFile)).trans leads

end World

end RepoContract
