/-
# RepoContract.Contract.Loading: loading a contract

Loading never fails: what it finds wrong is part of its result. A text that is no document yields
one problem, a document that breaks the schema one problem per complaint, and only a document
without problems yields a contract.
-/
import RepoContract.Contract.Decoding
import RepoContract.Contract.Schema
import RepoContract.Json.Reader
import RepoContract.Path
import RepoContract.Tree.SystemFault

namespace RepoContract

set_option autoImplicit false

/-- One problem with a contract. -/
inductive LoadProblem where
  | missing (path : Path)
  | unreadable (path : Path) (cause : SystemFault)
  | noDocument (fault : Json.Fault)
  | schema (complaint : Schema.Complaint)
  | undecodable (reason : Undecodable)
  deriving DecidableEq, Repr

def LoadProblem.message : LoadProblem → String
  | .missing path => "contract file not found: " ++ path.display
  | .unreadable path cause => "failed to read " ++ path.display ++ ": " ++ cause.message
  | .noDocument fault => contractFile ++ " is not valid JSON: " ++ fault.message
  | .schema complaint => complaint.message
  | .undecodable reason => contractFile ++ " could not be decoded: " ++ reason.message

/-- What loading found: the document if the text is one, the contract if nothing is wrong with
it, and every problem in the order found. -/
structure Loaded where
  path : Path
  document : Option Json.Value
  contract : Option Contract
  problems : List LoadProblem

def Loaded.isValid (loaded : Loaded) : Bool :=
  loaded.problems.isEmpty

/-- Where the contract of a project is. -/
def contractPath (root : Path) : Path :=
  root.join (Path.ofString contractFile)

/-- Load a contract from its text. -/
def Loaded.ofText (path : Path) (text : List Char) : Loaded :=
  match Json.parse text with
  | .error fault => ⟨path, none, none, [.noDocument fault]⟩
  | .ok document =>
    match Schema.complaints document with
    | [] =>
      match Contract.ofValue document with
      | .ok contract => ⟨path, some document, some contract, []⟩
      | .error reason => ⟨path, some document, none, [.undecodable reason]⟩
    | complaints => ⟨path, some document, none, complaints.map .schema⟩

/-- Load the contract of a project, given whether its file is there and what reading it gives. -/
def Loaded.ofProject (root : Path) (isThere : Bool) (content : Except SystemFault (List Char)) :
    Loaded :=
  let path := contractPath root
  if isThere then
    match content with
    | .ok text => .ofText path text
    | .error cause => ⟨path, none, none, [.unreadable path cause]⟩
  else ⟨path, none, none, [.missing path]⟩

end RepoContract
