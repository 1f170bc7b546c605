/-
# RepoContract.Rule.Roles: roles and hints of a file

A file declares roles by hints; each has to be one the contract allows, and all have to be the
same. In strict mode a file has to declare one. A hint that is malformed is a violation of its
own.
-/
import RepoContract.Rule.Basic

namespace RepoContract.Rule

set_option autoImplicit false

/-- What to say about a role that the contract does not allow. -/
def roleMessage (role : String) : String :=
  if canonicalRoles.contains role then
    "role '" ++ role ++ "' is not listed in the contract's roles"
  else
    "unknown role '" ++ role ++ "'. Valid roles: " ++ ", ".intercalate canonicalRoles

/-- The violations of the roles that a file declares. -/
def declaredRoles (contract : Contract) (path : Path) : List (Nat × String) → List Violation
  | [] => if contract.mode.isStrict then [.atLine path 1 "missing @aocs-role declaration"] else []
  | (line, first) :: more =>
    let refused := ((line, first) :: more).filter fun (_, role) => !contract.allowsRole role
    let conflict := more.find? fun (_, role) => role ≠ first
    refused.map (fun (line, role) => .atLine path line (roleMessage role))
      ++ (conflict.map fun (line, other) =>
        .atLine path line ("conflicting role declarations: '" ++ first ++ "' and '" ++ other ++ "'")
        ).toList

def judgeRoles (contract : Contract) (source : SourceFile) : List Violation :=
  declaredRoles contract source.path (source.valuesOf "role")

/-- What to say about a malformed hint. -/
def hintMessage (hint : Hint) : HintProblem → String
  | .unknownKey => "unknown hint key '@aocs-" ++ hint.key ++ "'"
  | .missingColon => "hint '@aocs-" ++ hint.key ++ "' is missing ':' before its value"
  | .emptyValue => "hint '@aocs-" ++ hint.key ++ "' has an empty value"

def judgeHints (_ : Contract) (source : SourceFile) : List Violation :=
  source.hints.filterMap fun hint =>
    hint.problem?.map fun problem => .atLine source.path hint.line (hintMessage hint problem)

end RepoContract.Rule
