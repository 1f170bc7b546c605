/-
# RepoContract.Starter: the files of a new project

A starter is a choice of languages and a mode. It yields a contract and a README for agents, and
`write` puts both below a root: unless forced, only where neither is there yet. `writeTo` does so on
a disk on which more can fail.
-/
import RepoContract.Contract.Decoding
import RepoContract.Contract.Loading
import RepoContract.Fault
import RepoContract.Tree.Edit

namespace RepoContract

set_option autoImplicit false

structure Starter where
  languages : List String
  mode : Mode
  deriving DecidableEq, Repr

namespace Starter

/-- The language of a starter for which none is chosen. -/
def defaultLanguage : String := "javascript"

/-- A starter for some languages. -/
def ofLanguages (languages : List String) (mode : Mode) : Starter :=
  ⟨if languages.isEmpty then [defaultLanguage] else languages, mode⟩

/-- The starter when nothing is chosen. -/
def standard : Starter := ofLanguages [] .strict

def contract (starter : Starter) : Contract :=
  { Contract.minimal starter.languages starter.mode with forbiddenPatterns := ["dynamic-eval"] }

/-- The text of the contract's file. -/
def contractText (starter : Starter) : String :=
  starter.contract.render ++ "\n"

/-- The text of the README's file. -/
def readmeText (starter : Starter) : String :=
  "# Agent guide\n"
    ++ "\n"
    ++ "This repository is validated by `aocs` against `" ++ contractFile ++ "`.\n"
    ++ "\n"
    ++ "- Languages: " ++ ", ".intercalate starter.languages ++ "\n"
    ++ "- Mode: " ++ Spelled.spelling starter.mode ++ "\n"
    ++ "\n"
    ++ "Start every source file with a role hint in a comment, for example\n"
    ++ "`// @aocs-role: service`. Valid roles are entry, service, state, ui,\n"
    ++ "util and test. Files that export public items should also declare\n"
    ++ "`@aocs-module: <name>`. State files name their owner with\n"
    ++ "`@aocs-owner`, and services list their effects with\n"
    ++ "`@aocs-side-effects`.\n"
    ++ "\n"
    ++ "Run `aocs validate` before committing.\n"

/-- Where a README for agents is. -/
def readmePath (root : Path) : Path :=
  root.join (Path.ofString readmeFile)

/-- The files of a starter, in the order in which they are written. -/
def files (starter : Starter) (root : Path) : List (Path × String) :=
  [(contractPath root, starter.contractText), (readmePath root, starter.readmeText)]

/-- Write files in order, up to the first that cannot be written. -/
def writeFiles (disk : Disk) (world : World) :
    List (Path × String) → World × Except Fault (List Path)
  | [] => (world, .ok [])
  | (path, text) :: rest =>
    match disk.write world path (Text.Utf8.encode text.toList) with
    | (world, .error cause) => (world, .error (.unwritable path cause))
    | (world, .ok ()) =>
      match writeFiles disk world rest with
      | (world, .ok written) => (world, .ok (path :: written))
      | (world, .error fault) => (world, .error fault)

/-- Write a starter below a root; the world after it, and the paths written. -/
def writeTo (disk : Disk) (starter : Starter) (world : World) (root : Path) (force : Bool) :
    World × Except Fault (List Path) :=
  let existing := [contractPath root, readmePath root].find? world.has
  match if force then none else existing with
  | some path =>
    (world, .error (.contract (path.display ++ " already exists. Use --force to overwrite.")))
  | none =>
    match disk.makeDirs world root with
    | (world, .error cause) => (world, .error (.unwritable root cause))
    | (world, .ok ()) => writeFiles disk world (starter.files root)

/-- Write a starter where nothing fails but for what stands in the tree. -/
def write (starter : Starter) : World → Path → Bool → World × Except Fault (List Path) :=
  starter.writeTo .unlimited

end Starter

end RepoContract
