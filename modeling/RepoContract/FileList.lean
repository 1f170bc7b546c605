/-
# RepoContract.FileList: the files of a project

A file list keeps the first of several paths with the same components, as it was written. Files
are shown as they look from the root of the project.
-/
import RepoContract.Path

namespace RepoContract

set_option autoImplicit false

structure FileList where
  root : Path
  files : List Path
  deriving Repr

namespace FileList

/-- Whether two paths have the same components. -/
def samePlace (left right : Path) : Bool :=
  left.components == right.components

/-- Paths without those whose components have come before. -/
def distinct : List Path → List Path
  | [] => []
  | path :: rest => path :: (distinct rest).filter fun other => !samePlace path other

/-- The list of some files below a root. -/
def ofPaths (root : Path) (paths : List Path) : FileList :=
  ⟨root, distinct paths⟩

def size (list : FileList) : Nat :=
  list.files.length

def isEmpty (list : FileList) : Bool :=
  list.files.isEmpty

/-- Whether a file with the components of a path is listed. -/
def contains (list : FileList) (path : Path) : Bool :=
  list.files.any (samePlace path)

/-- A path as it looks from the root. -/
def relative (list : FileList) (path : Path) : Path :=
  path.relativeTo list.root

end FileList

end RepoContract
