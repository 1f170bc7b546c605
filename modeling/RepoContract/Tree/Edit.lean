/-
# RepoContract.Tree.Edit: changing a tree

Each operation gives the world after it and whether it went well; what was done before it failed
stays done. Here an operation fails for what stands in the tree alone. Permissions, room on the
medium and limits on the length of paths are no part of a world, so what fails for these is said of
a `Disk`: how directories are made and files are written is then a parameter.
-/
import RepoContract.Tree.World

namespace RepoContract

set_option autoImplicit false

namespace Path

/-- A path without the slashes at its end; one of slashes alone stays as it is. -/
def withoutEndSlashes (path : Path) : Path :=
  let front := (path.bytes.reverse.dropWhile (· == slash)).reverse
  if front = [] then path else ⟨front⟩

/-- The path without its last component. -/
def parent? (path : Path) : Option Path :=
  if path.steps = [] then
    if path.anchor = [.here] then some ⟨[]⟩ else none
  else
    some ⟨path.anchorBytes ++ glue (dropIdleEnd (dropIdleEnd path.body).dropLast)⟩

end Path

namespace World

/-- The world with a node put at a location. -/
def put (world : World) (location : List Name) (node : Node) : World :=
  { world with root := Node.put node location world.root }

/-- Make one directory. -/
def makeDir (world : World) (path : Path) : Except SystemFault World :=
  if path.bytes = [] then .error .noEntry
  else
    let path := path.withoutEndSlashes
    match path.moves.getLast? with
    | some (.down name) => do
      let start := if path.isAbsolute then [] else world.current
      let parent ← locateFrom world.root .follow 40 start path.moves.dropLast
      match world.root.at? parent with
      | some (.dir entries) =>
        if (entries.lookup name).isSome then throw .alreadyExists
        else return world.put (parent ++ [name]) (.dir [])
      | some _ => throw .notDirectory
      | none => throw .noEntry
    | _ => do
      let _ ← world.locate .follow path
      throw .alreadyExists

/-- Make a directory and those above it, going up at most `count` times. -/
def makeDirsFrom : Nat → World → Path → World × Except SystemFault Unit
  | count, world, path =>
    if path.bytes = [] then (world, .ok ())
    else
      match world.makeDir path with
      | .ok world => (world, .ok ())
      | .error cause =>
        if cause = .noEntry then
          match count, path.parent? with
          | count + 1, some parent =>
            match makeDirsFrom count world parent with
            | (world, .error cause) => (world, .error cause)
            | (world, .ok ()) =>
              match world.makeDir path with
              | .ok world => (world, .ok ())
              | .error cause => (world, if world.isDir path then .ok () else .error cause)
          | _, _ => (world, .error (.other "failed to create whole tree"))
        else (world, if world.isDir path then .ok () else .error cause)

/-- Make a directory and those above it, where they are not there. -/
def makeDirs (world : World) (path : Path) : World × Except SystemFault Unit :=
  makeDirsFrom path.components.length world path

/-- Write a file, over what it held. -/
def write (world : World) (path : Path) (bytes : List UInt8) : Except SystemFault World := do
  let location ← world.locate .create path
  match world.root.at? location with
  | some (.dir _) => throw .isDirectory
  | _ => return world.put location (.file bytes)

/-- Make a symbolic link. -/
def makeLink (world : World) (path target : Path) : Except SystemFault World :=
  match world.locate .keep path with
  | .ok _ => .error .alreadyExists
  | .error _ => do
    let location ← world.locate .create path
    return world.put location (.link target)

/-- Remove what is at a path: a file, a link, or a directory with all it holds. -/
def remove (world : World) (path : Path) : Except SystemFault World := do
  let location ← world.locate .keep path
  return { world with root := world.root.erase location }

end World

/-- How a world is written to. What was done before an operation failed stays done. -/
structure Disk where
  makeDirs : World → Path → World × Except SystemFault Unit
  write : World → Path → List UInt8 → World × Except SystemFault Unit

/-- The disk on which everything is permitted and nothing runs out. -/
def Disk.unlimited : Disk where
  makeDirs := World.makeDirs
  write world path bytes :=
    match world.write path bytes with
    | .ok after => (after, .ok ())
    | .error cause => (world, .error cause)

end RepoContract
