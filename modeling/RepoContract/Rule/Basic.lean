/-
# RepoContract.Rule.Basic: rules and what they look at

A rule is a check with an id, a name and a severity. A check looks at a project and either
completes with what it found, or refuses with a fault, or crashes. It sees no other rule.
-/
import RepoContract.Contract.Basic
import RepoContract.Fault
import RepoContract.FileList
import RepoContract.Record
import RepoContract.Source
import RepoContract.Tree.World

namespace RepoContract

set_option autoImplicit false

/-- What a check looks at. -/
structure Project where
  world : World
  root : Path
  contract : Contract
  files : FileList
  languages : LanguageTable

namespace Project

/-- A listed file whose extension is known and which can be read. -/
def source? (project : Project) (path : Path) : Option SourceFile := do
  let language ← SourceFile.classify? project.languages path
  let text ← (project.world.readLossy path).toOption
  return ⟨project.files.relative path, language, text⟩

/-- The source files of a project, in the order listed. -/
def sources (project : Project) : List SourceFile :=
  project.files.files.filterMap project.source?

/-- A path below the root. -/
def under (project : Project) (name : String) : Path :=
  project.root.join (Path.ofString name)

/-- The text of a file, with replacement characters where it is ill-formed. -/
def readLossy (project : Project) (path : Path) : Except Fault (List Char) :=
  (project.world.readLossy path).mapError (.unreadable path)

end Project

/-- What a check found. -/
structure Outcome where
  violations : List Violation := []
  warnings : List Violation := []
  deriving DecidableEq, Repr

/-- How a check ended. -/
inductive Verdict where
  | completed (outcome : Outcome)
  | refused (fault : Fault)
  /-- With the text it left, if it left any. -/
  | crashed (text : Option String)
  deriving DecidableEq, Repr

/-- Nothing was found. -/
def Verdict.pass : Verdict := .completed {}

/-- These violations were found. -/
def Verdict.found (violations : List Violation) : Verdict := .completed { violations }

structure Rule where
  id : String
  name : String
  severity : Severity
  check : Project → Verdict

/-- The check that judges each source file on its own. -/
def perFile (judge : Contract → SourceFile → List Violation) (project : Project) : Verdict :=
  .found (project.sources.flatMap (judge project.contract))

end RepoContract
