/-
# RepoContract.Fault: what can fail

A fault names its cause. `brief` is the line shown to a user, `message` also tells the cause
underneath where `brief` leaves it out.
-/
import RepoContract.Glob.Combined
import RepoContract.Json.Stop
import RepoContract.Path
import RepoContract.Tree.SystemFault

namespace RepoContract

set_option autoImplicit false

/-- Why a document cannot be read or written. -/
inductive DocumentFault where
  | unreadable (fault : Json.Fault)
  | pathNotText
  deriving DecidableEq, Repr

def DocumentFault.message : DocumentFault → String
  | .unreadable fault => fault.message
  | .pathNotText => "path contains invalid UTF-8 characters"

inductive Fault where
  | contract (text : String)
  | unreadable (path : Path) (cause : SystemFault)
  | unwritable (path : Path) (cause : SystemFault)
  | badGlob (pattern : String) (cause : Glob.Problem)
  | refusedGlobs (cause : Glob.Refusal)
  | rule (name : String) (text : String)
  | system (cause : SystemFault)
  | document (cause : DocumentFault)
  | prompt (cause : SystemFault)
  deriving DecidableEq, Repr

namespace Fault

def brief : Fault → String
  | .contract text => "Contract error: " ++ text
  | .unreadable path _ => "Failed to read file: " ++ path.display
  | .unwritable path _ => "Failed to write file: " ++ path.display
  | .badGlob pattern _ => "Invalid glob pattern: " ++ pattern
  | .refusedGlobs _ => "Invalid glob pattern: combined patterns"
  | .rule name text => "Rule '" ++ name ++ "' failed: " ++ text
  | .system cause => "IO error: " ++ cause.message
  | .document cause => "JSON error: " ++ cause.message
  | .prompt cause => "Prompt error: IO error: " ++ cause.message

def message : Fault → String
  | .unreadable path cause => path.display ++ ": " ++ cause.message
  | .unwritable path cause => path.display ++ ": " ++ cause.message
  | .badGlob pattern cause =>
    pattern ++ ": error parsing glob '" ++ pattern ++ "': " ++ cause.message
  | .refusedGlobs cause => "combined patterns: " ++ cause.message
  | fault => fault.brief

end Fault

end RepoContract
