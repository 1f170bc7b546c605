/-
# RepoContract.Rule.BuiltIn: the rules that are there from the start
-/
import RepoContract.Rule.Code
import RepoContract.Rule.Companions
import RepoContract.Rule.Documents
import RepoContract.Rule.Roles
import RepoContract.Rule.Table

namespace RepoContract.RuleTable

set_option autoImplicit false

open Rule

/-- The rules for every project, in the order in which they run. -/
def universalRules (compile : Pattern.Compiler) : List Rule := [
  ⟨"contract-present", "Repository contract present", .error, checkContractPresent⟩,
  ⟨"contract-schema", "Repository contract schema", .error, checkContractSchema⟩,
  ⟨"file-roles", "File role declarations", .error, perFile judgeRoles⟩,
  ⟨"inline-hints", "Inline hint syntax", .error, perFile judgeHints⟩,
  ⟨"forbidden-patterns", "Forbidden code patterns", .error, checkForbidden⟩,
  ⟨"module-manifest", "Module manifest declarations", .warn, checkManifests compile⟩,
  ⟨"agent-readme", "Agent README", .error, checkReadme⟩]

def javascriptRules : List Rule := [
  ⟨"js-state-owner", "JavaScript state owner annotation", .error,
    checkCompanion "javascript" stateOwner⟩,
  ⟨"js-service-effects", "JavaScript service side-effect annotation", .warn,
    checkCompanion "javascript" serviceEffects⟩]

def typescriptRules : List Rule := [
  ⟨"ts-state-owner", "TypeScript state owner annotation", .error,
    checkCompanion "typescript" stateOwner⟩,
  ⟨"ts-service-effects", "TypeScript service side-effect annotation", .warn,
    checkCompanion "typescript" serviceEffects⟩]

def pythonRules : List Rule := [
  ⟨"py-service-effects", "Python service side-effect annotation", .warn,
    checkCompanion "python" serviceEffects⟩]

/-- The rules for every project and those of three languages, where patterns are compiled in some
way. -/
def builtInWith (compile : Pattern.Compiler) : RuleTable :=
  ⟨universalRules compile,
    [("javascript", javascriptRules), ("typescript", typescriptRules), ("python", pythonRules)]⟩

def builtIn : RuleTable :=
  builtInWith Pattern.compile

end RepoContract.RuleTable
