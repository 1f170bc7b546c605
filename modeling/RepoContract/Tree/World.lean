/-
# RepoContract.Tree.World: where a path leads

A world is a tree and the location of the current directory in it. A path is followed move by
move; a link on the way is replaced by the moves of its target, at most forty times. Nothing else
stands in the way of a path: there are no permissions, and a path can have any length.
-/
import RepoContract.Tree.Node
import RepoContract.Tree.SystemFault

namespace RepoContract

set_option autoImplicit false

structure World where
  root : Node
  current : List Name
  deriving Repr

/-- One move along a path. -/
inductive Move where
  /-- Nothing stands between two slashes, or behind the last one. -/
  | idle
  | stay
  | up
  | down (name : Name)
  deriving DecidableEq, Repr

def Move.ofPart (part : Name) : Move :=
  if part = [] then .idle
  else if part = [Path.dot] then .stay
  else if part = [Path.dot, Path.dot] then .up
  else .down part

/-- The moves of a path, from the root or from the current directory. -/
def Path.moves (path : Path) : List Move :=
  if path.isAbsolute then (Path.parts (path.bytes.drop 1)).map Move.ofPart
  else (Path.parts path.bytes).map Move.ofPart

/-- What happens at the last name of a path. -/
inductive Final where
  /-- A link is followed, and something has to be there. -/
  | follow
  /-- A link stands for itself, and something has to be there. -/
  | keep
  /-- A link is followed, and nothing has to be there; a slash behind the name is refused. -/
  | create
  deriving DecidableEq, Repr

/-- The location to which moves lead from a location; `links` more links may be followed. -/
def locateFrom (root : Node) (final : Final) (links : Nat) (here : List Name) :
    List Move → Except SystemFault (List Name)
  | [] => .ok here
  | move :: rest =>
    match root.at? here with
    | some (.dir entries) =>
      match move with
      | .idle => locateFrom root final links here rest
      | .stay => locateFrom root final links here rest
      | .up => locateFrom root final links here.dropLast rest
      | .down name =>
        if final = .create && rest ≠ [] && rest.all (· = .idle) then .error .isDirectory
        else
          match entries.lookup name with
          | none =>
            if final = .create && rest = [] then .ok (here ++ [name]) else .error .noEntry
          | some (.link target) =>
            if final = .keep && rest = [] then .ok (here ++ [name])
            else
              match links with
              | 0 => .error .tooManyLinks
              | links + 1 =>
                locateFrom root final links (if target.isAbsolute then [] else here)
                  (target.moves ++ rest)
          | some _ => locateFrom root final links (here ++ [name]) rest
    | some _ => .error .notDirectory
    | none => .error .noEntry
  termination_by moves => (links, moves.length)

namespace World

/-- The location to which a path leads. -/
def locate (world : World) (final : Final) (path : Path) : Except SystemFault (List Name) :=
  if path.bytes = [] then .error .noEntry
  else
    locateFrom world.root final 40 (if path.isAbsolute then [] else world.current) path.moves

/-- The file or directory to which a path leads. -/
def node (world : World) (path : Path) : Except SystemFault Node := do
  let location ← world.locate .follow path
  match world.root.at? location with
  | some node => return node
  | none => throw .noEntry

/-- Whether a path leads anywhere. -/
def has (world : World) (path : Path) : Bool :=
  (world.node path).isOk

/-- Whether a path leads to a regular file. -/
def isFile (world : World) (path : Path) : Bool :=
  match world.node path with
  | .ok (.file _) => true
  | _ => false

/-- Whether a path leads to a directory. -/
def isDir (world : World) (path : Path) : Bool :=
  match world.node path with
  | .ok (.dir _) => true
  | _ => false

/-- The content of the file to which a path leads. -/
def read (world : World) (path : Path) : Except SystemFault (List UInt8) := do
  match ← world.node path with
  | .file bytes => return bytes
  | .dir _ => throw .isDirectory
  | .link _ => throw .tooManyLinks

/-- The content of a file as text; an ill-formed one is refused. -/
def readText (world : World) (path : Path) : Except SystemFault (List Char) := do
  match Text.Utf8.decode? (← world.read path) with
  | some text => return text
  | none => throw .notText

/-- The content of a file as text, with replacement characters where it is ill-formed. -/
def readLossy (world : World) (path : Path) : Except SystemFault (List Char) :=
  (world.read path).map Text.Utf8.decodeLossy

/-- The absolute path without links, dots and idle slashes. -/
def canonical (world : World) (path : Path) : Except SystemFault Path :=
  (world.locate .follow path).map fun location => ⟨Path.slash :: Path.glue location⟩

end World

end RepoContract
