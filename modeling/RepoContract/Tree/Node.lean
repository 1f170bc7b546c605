/-
# RepoContract.Tree.Node: trees of files

A node is a regular file, a symbolic link or a directory. A directory lists its entries in the
order in which they are enumerated, each name once. A node's location in a tree is the list of
names that lead to it from the root; links are not looked through here.
-/
import RepoContract.Path

namespace RepoContract

set_option autoImplicit false

inductive Node where
  | file (bytes : List UInt8)
  | link (target : Path)
  | dir (entries : List (Name × Node))
  deriving Repr, Inhabited

namespace Node

def isDir : Node → Bool
  | .dir _ => true
  | _ => false

/-- The entry of a name. -/
def child? (name : Name) : Node → Option Node
  | .dir entries => entries.lookup name
  | _ => none

/-- The node at a location. -/
def at? (node : Node) : List Name → Option Node
  | [] => some node
  | name :: rest => (node.child? name).bind (at? · rest)

/-- Put an entry in the place of the one of its name, or at the end. -/
def setEntry (name : Name) (node : Node) : List (Name × Node) → List (Name × Node)
  | [] => [(name, node)]
  | (other, old) :: rest =>
    if other = name then (name, node) :: rest else (other, old) :: setEntry name node rest

/-- The tree with a node put at a location whose directories are there. -/
def put (value : Node) : List Name → Node → Node
  | [], _ => value
  | name :: rest, .dir entries =>
    match entries.lookup name with
    | some old => .dir (setEntry name (put value rest old) entries)
    | none => if rest = [] then .dir (setEntry name value entries) else .dir entries
  | _ :: _, node => node

/-- The tree without the node at a location. -/
def erase : List Name → Node → Node
  | [name], .dir entries => .dir (entries.filter (·.1 ≠ name))
  | name :: rest, .dir entries =>
    match entries.lookup name with
    | some old => .dir (setEntry name (erase rest old) entries)
    | none => .dir entries
  | _, node => node

end Node

end RepoContract
