/-
# RepoContract.Rule.Companions: hints that a role asks for

In some languages a file that declares a role has to give a further hint: a state file its owner,
a service file its side effects. A contract can switch either off.
-/
import RepoContract.Pattern.Catalog
import RepoContract.Rule.Basic

namespace RepoContract.Rule

set_option autoImplicit false

/-- A role, the hint it asks for, and whether a contract asks for it at all. -/
structure Companion where
  role : String
  hint : String
  isAsked : Contract → Bool

/-- State has an owner, unless its ownership is shared. -/
def stateOwner : Companion :=
  ⟨"state", "owner", fun contract => contract.stateOwnership ≠ some .shared⟩

/-- Services list their side effects, unless these are unrestricted. -/
def serviceEffects : Companion :=
  ⟨"service", "side-effects", fun contract => contract.sideEffects ≠ some .unrestricted⟩

/-- The violation of a file with the role and without the hint, at the first line with the
role. -/
def judgeCompanion (companion : Companion) (source : SourceFile) : List Violation :=
  match (source.valuesOf "role").find? fun (_, role) => role = companion.role with
  | none => []
  | some (line, _) =>
    if source.hasHint companion.hint then []
    else [.atLine source.path line
      ("'" ++ companion.role ++ "' role requires an @aocs-" ++ companion.hint ++ " annotation")]

/-- Judge the files of a language, whose name may differ in ASCII letter case. -/
def checkCompanion (language : String) (companion : Companion) (project : Project) : Verdict :=
  if companion.isAsked project.contract then
    .found ((project.sources.filter fun source =>
      sameAsciiCase source.language.name language).flatMap (judgeCompanion companion))
  else .pass

end RepoContract.Rule
