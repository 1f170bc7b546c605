/-
# RepoContract.Eligibility: which files of a project are judged

A file is eligible when its extension is among those of the declared languages and no glob for
minified files or of the user matches it. A directory is entered unless its name is hidden or
denied, or a glob for fixtures or of the user matches it; a name that is not text is neither
hidden nor denied.
-/
import RepoContract.Fault
import RepoContract.FileList
import RepoContract.Glob.Combined
import RepoContract.Language.Table
import RepoContract.Tree.Walk

namespace RepoContract

set_option autoImplicit false

namespace Eligibility

/-- The names of directories that are never entered. -/
def deniedDirs : List String :=
  ["node_modules", ".git", ".hg", ".svn", "dist", "build", "coverage", "out", "output", "target",
    "__pycache__"]

/-- Where files that break the rules on purpose are kept. -/
def fixtureGlobs : List String :=
  ["**/fixtures/invalid", "**/fixtures/invalid-*", "**/__fixtures__/invalid",
    "**/__fixtures__/invalid-*"]

def minifiedGlobs : List String :=
  ["**/*.min.*"]

/-- The tokens of some globs that are tried together; the first that is no glob is the fault, and
else one that cannot be combined. -/
def readGlobs (globs : List String) : Except Fault (List (List Glob.Token)) := do
  let tokens ← globs.mapM fun glob => (Glob.parse glob).mapError (.badGlob glob)
  match Glob.refusal? tokens with
  | some refusal => throw (.refusedGlobs refusal)
  | none => return tokens

/-- Whether a path has one of some extensions. -/
def hasExtension (extensions : List String) (path : Path) : Bool :=
  path.extensionText?.any extensions.contains

/-- Whether a directory is left out by its own name. -/
def isDeniedName (name : Name) : Bool :=
  match Text.Utf8.decode? name with
  | some text => text.head? = some '.' || deniedDirs.contains (String.ofList text)
  | none => false

/-- The filter of some extensions and globs of the user. -/
def filter (extensions : List String) (excludes : List String) : Except Fault Filter := do
  let dirGlobs ← readGlobs (fixtureGlobs ++ excludes)
  let fileGlobs ← readGlobs (minifiedGlobs ++ excludes)
  return {
    includes := fun path => hasExtension extensions path && !Glob.anyMatch fileGlobs path
    enters := fun path => !path.fileName?.any isDeniedName && !Glob.anyMatch dirGlobs path }

end Eligibility

/-- The eligible files of a project that declares some languages. -/
def World.scan (world : World) (root : Path) (languages : LanguageTable) (declared : List String)
    (excludes : List String) : Except Fault FileList := do
  let filter ← Eligibility.filter (languages.extensionsFor declared) excludes
  return .ofPaths root (world.walk filter root)

end RepoContract
