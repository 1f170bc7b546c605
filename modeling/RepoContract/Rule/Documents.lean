/-
# RepoContract.Rule.Documents: rules about the contract and the README

The contract has to be there and to fulfil the schema; a file that is not well-formed text is
judged with replacement characters. The README for agents has to be there, and it should be short.
-/
import RepoContract.Contract.Loading
import RepoContract.Rule.Basic

namespace RepoContract.Rule

set_option autoImplicit false

def checkContractPresent (project : Project) : Verdict :=
  if project.world.isFile (project.under contractFile) then .pass
  else .found [.general ("missing " ++ contractFile ++ " at the project root")]

def checkContractSchema (project : Project) : Verdict :=
  let path := project.under contractFile
  if project.world.isFile path then
    match project.readLossy path with
    | .error fault => .refused fault
    | .ok text =>
      .found ((Loaded.ofText path text).problems.map fun problem =>
        .inFile (Path.ofString contractFile) problem.message)
  else .found [.general ("cannot validate schema: " ++ contractFile ++ " is missing")]

/-- The number of words a README for agents should not exceed. -/
def readmeWordLimit : Nat := 200

def checkReadme (project : Project) : Verdict :=
  let path := project.under readmeFile
  if project.world.isFile path then
    match project.readLossy path with
    | .error fault => .refused fault
    | .ok text =>
      let words := Text.wordCount text
      if readmeWordLimit < words then
        .completed { warnings := [.inFile (Path.ofString readmeFile)
          s!"{readmeFile} has {words} words; keep it to {readmeWordLimit} or fewer"] }
      else .pass
  else .found [.general ("missing " ++ readmeFile ++ " at the project root")]

end RepoContract.Rule
