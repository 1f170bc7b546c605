/-
# RepoContract.Main: the program

The outer layer: it copies the part of the file system that an invocation concerns into a world,
runs the invocation there, prints what it says, and puts the files that it wrote on the disk. It
decides nothing else.
-/
import RepoContract.CommandLine.Run

namespace RepoContract.Main

set_option autoImplicit false

open CommandLine

/-- The summary of the command line. -/
def usage : String :=
  "Validate a repository against its code contract\n\n"
    ++ "Usage: aocs [-v...] [-q] [--color auto|always|never] <command>\n\n"
    ++ "Commands:\n"
    ++ "  validate [path] [-f text|json] [-x glob]... [--fix]\n"
    ++ "  init [path] [-l language]... [-m lite|strict] [-y] [--force]\n\n"
    ++ "Exit codes:\n"
    ++ "  0 - No error-severity violations\n"
    ++ "  1 - Violations found\n"
    ++ "  2 - Runtime error (I/O, refused overwrite)\n"

/-- What to say about a command line that is not run. -/
def explain : Refusal → String
  | .help => ""
  | .version => "aocs 0.1.0\n"
  | .helpOnMissing => ""
  | .missingCommand => "error: a command is required\n\n"
  | .unknownCommand => "error: unrecognized command\n\n"
  | .unknownArgument => "error: unexpected argument\n\n"
  | .badValue => "error: a value is missing or not possible\n\n"
  | .unreadableValue => "error: invalid value\n\n"
  | .repeated => "error: an argument cannot be used multiple times\n\n"
  | .unwantedValue => "error: unexpected value for a flag\n\n"

/-- The content of a file. -/
def fileNode (path : String) : IO (Option Node) := do
  try
    return some (.file (← IO.FS.readBinFile path).toList)
  catch _ =>
    return none

/-- The node of a path on the disk, looking through a link; entries that cannot be read are left
out, and directories below the first are copied only if `deep` holds. -/
partial def snapshot (deep : Bool) (path : String) : IO (Option Node) := do
  try
    let place ← IO.FS.realPath path
    if !(← place.isDir) then fileNode path
    else
      let entries ← (← place.readDir).toList.filterMapM fun entry => do
        return (← entryNode entry).map fun node => ((Path.ofString entry.fileName).bytes, node)
      return some (.dir entries)
  catch _ =>
    return none
where
  /-- The node of a directory's entry. A link to a file is copied as that file when it is one of
  the two documents at the root, and stays a link elsewhere, where nothing looks through it. -/
  entryNode (entry : IO.FS.DirEntry) : IO (Option Node) := do
    let path := entry.path.toString
    match (← entry.path.symlinkMetadata).type with
    | .dir => if deep then snapshot deep path else return some (.dir [])
    | .file => fileNode path
    | .symlink =>
      if entry.fileName == contractFile || entry.fileName == readmeFile then
        match ← fileNode path with
        | some node => return some node
        | none => return some (.link (Path.ofString path))
      else return some (.link (Path.ofString path))
    | .other => return none

/-- The path an invocation is about. -/
def concerned : Command → Path
  | .validate arguments => arguments.path
  | .init arguments => arguments.path

/-- The invocation with the path it is about in canonical form, when it validates. -/
def settle (invocation : Invocation) : IO Invocation := do
  match invocation.command with
  | .init _ => return invocation
  | .validate arguments =>
    try
      let place ← IO.FS.realPath arguments.path.display
      if ← place.pathExists then
        let path := Path.ofString place.toString
        return { invocation with command := .validate { arguments with path } }
      else return invocation
    catch _ =>
      return invocation

/-- A world that holds what an invocation concerns. -/
def worldFor (command : Command) : IO World := do
  let current := Path.ofString (← IO.currentDir).toString
  let world : World := ⟨.dir [], []⟩
  let world := (world.makeDirs current).1
  let world := { world with current := (world.locate .follow current).toOption.getD [] }
  let path := concerned command
  let deep := match command with
    | .validate _ => true
    | .init _ => false
  match ← snapshot deep path.display with
  | none => return world
  | some node =>
    let world := (world.makeDirs path).1
    match world.locate .follow path with
    | .ok location => return world.put location node
    | .error _ => return world

/-- Put the documents below a root that changed between two worlds on the disk. -/
def save (old new : World) (root : Path) : IO Unit := do
  for path in [contractPath root, Starter.readmePath root] do
    match new.read path with
    | .error _ => pure ()
    | .ok bytes =>
      if (old.read path).toOption != some bytes then
        IO.FS.createDirAll root.display
        IO.FS.writeBinFile path.display ⟨bytes.toArray⟩

/-- Whether the standard output is a terminal and colour is not refused. -/
def wantsColor : IO Bool := do
  if (← IO.getEnv "NO_COLOR").isSome then return false
  return ← (← IO.getStdout).isTty

end RepoContract.Main

open RepoContract RepoContract.Main in
/-- Read the command line, run it, and leave with its exit code. -/
def main (arguments : List String) : IO UInt32 := do
  match CommandLine.read arguments with
  | .error refusal =>
    let stream ← if refusal.exitCode == 0 then IO.getStdout else IO.getStderr
    stream.putStr (explain refusal)
    if refusal != .version then stream.putStr usage
    return refusal.exitCode.toUInt32
  | .ok invocation =>
    let invocation ← settle invocation
    let world ← worldFor invocation.command
    let result := CommandLine.run world (← wantsColor) invocation
    save world result.world (concerned invocation.command)
    (← IO.getStderr).putStr result.errors
    (← IO.getStdout).putStr result.output
    return result.exitCode.toUInt32
