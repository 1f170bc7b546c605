/-
# RepoContract.Rule.Code: rules about lines of code

Forbidden patterns are looked for in every line of code. In strict mode a file with a line that
exports something has to name its module; the export pattern of a language is compiled once per name
and kept for the files that follow. How patterns are compiled is a parameter.
-/
import RepoContract.Pattern.Catalog
import RepoContract.Pattern.Reader
import RepoContract.Rule.Basic

namespace RepoContract.Rule

set_option autoImplicit false

/-- The catalog entries that a contract forbids, in its order. -/
def enforcedEntries (contract : Contract) : List ForbiddenPattern :=
  contract.enforcedPatterns.filterMap ForbiddenPattern.find?

/-- The violations of a line of code, in the order of the entries. -/
def judgeLine (entries : List ForbiddenPattern) (source : SourceFile) (number : Nat)
    (line : List Char) : List Violation :=
  (entries.filter fun entry => entry.firesOn source.language.name line).map fun entry =>
    .atLine source.path number
      ("forbidden pattern '" ++ entry.id ++ "' (" ++ entry.description ++ ")")

def judgeForbidden (contract : Contract) (source : SourceFile) : List Violation :=
  source.codeLines.flatMap fun (number, line) =>
    judgeLine (enforcedEntries contract) source number line

/-- Nothing is looked for where nothing is forbidden. -/
def checkForbidden (project : Project) : Verdict :=
  if (enforcedEntries project.contract).isEmpty then .pass else perFile judgeForbidden project

/-- The export pattern of a language, as what it matches. -/
def exportPattern (compile : Pattern.Compiler) (language : Language) :
    Except Fault (List Char → Bool) :=
  (compile language.exportPattern).mapError fun reason =>
    .rule "module-manifest"
      ("invalid export pattern for " ++ language.name ++ ": " ++ reason)

/-- The violation of a file that exports something and names no module. -/
def judgeManifest (pattern : List Char → Bool) (source : SourceFile) : List Violation :=
  if source.codeLines.any (fun (_, line) => pattern line) && !source.hasHint "module" then
    [.atLine source.path 1 "exports public items but declares no @aocs-module manifest"]
  else []

/-- Judge files in order, given the patterns of the names that came before. -/
def manifestsFrom (compile : Pattern.Compiler) (known : List (String × (List Char → Bool))) :
    List SourceFile → Except Fault (List Violation)
  | [] => .ok []
  | source :: rest => do
    let (pattern, known) ←
      match known.lookup source.language.name with
      | some pattern => pure (pattern, known)
      | none => do
        let pattern ← exportPattern compile source.language
        pure (pattern, (source.language.name, pattern) :: known)
    let more ← manifestsFrom compile known rest
    return judgeManifest pattern source ++ more

def checkManifests (compile : Pattern.Compiler) (project : Project) : Verdict :=
  if project.contract.mode.isStrict then
    match manifestsFrom compile [] project.sources with
    | .ok violations => .found violations
    | .error fault => .refused fault
  else .pass

end RepoContract.Rule
