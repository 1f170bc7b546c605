/-
# RepoContract.Tree.Walk: the files below a root

A walk goes through a directory in the order of its entries. It enters the directories that its
filter lets it enter, looks through no link below the root, and yields the regular files that the
filter includes. A filter sees paths relative to the root.
-/
import RepoContract.Tree.World

namespace RepoContract

set_option autoImplicit false

/-- Which files a walk yields and which directories it enters. -/
structure Filter where
  includes : Path → Bool
  enters : Path → Bool

namespace Node

mutual

/-- The locations of the files that a filter includes, of a node that stands below some names. -/
def files (filter : Filter) (names : List Name) : Node → List (List Name)
  | .file _ => if filter.includes (Path.ofNames names) then [names] else []
  | .link _ => []
  | .dir entries => filesOf filter names entries

def filesOf (filter : Filter) (names : List Name) : List (Name × Node) → List (List Name)
  | [] => []
  | (name, node) :: rest =>
    let here := names ++ [name]
    (if node.isDir && !filter.enters (Path.ofNames here) then [] else files filter here node)
      ++ filesOf filter names rest

end

end Node

/-- The path of a location below a root. -/
def Path.descend (root : Path) (names : List Name) : Path :=
  names.foldl (fun path name => path.join ⟨name⟩) root

/-- The files below a root. A link is followed when it is the root and leads to a directory. -/
def World.walk (world : World) (filter : Filter) (root : Path) : List Path :=
  match world.locate .keep root with
  | .error _ => []
  | .ok location =>
    let start : Option Node :=
      match world.root.at? location with
      | some (.link _) => (world.node root).toOption.filter Node.isDir
      | found => found
    match start with
    | none => []
    | some node => (node.files filter []).map root.descend

end RepoContract
