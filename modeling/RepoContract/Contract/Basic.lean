/-
# RepoContract.Contract.Basic: contracts

A contract declares the languages of a repository, how strictly its files are judged, and which
patterns and roles it forbids or allows. The closed sets of a contract are enumerations with one
spelling per member; `Spelled` lists the members in the order in which messages name them.
-/
import RepoContract.Text.LowerCase

namespace RepoContract

set_option autoImplicit false

/-- A closed set whose members have a spelling. -/
class Spelled (α : Type) where
  members : List α
  spelling : α → String

namespace Spelled

variable {α : Type} [Spelled α]

variable (α) in
/-- All spellings of a closed set. -/
def spellings : List String :=
  (members (α := α)).map spelling

/-- The member of a spelling. -/
def ofSpelling? (text : String) : Option α :=
  members.find? fun member => spelling member == text

/-- The member of a spelling in any letter case. -/
def ofAnyCase? (text : String) : Option α :=
  ofSpelling? (String.ofList (Text.lower text.toList))

end Spelled

/-- `lite` judges what a file declares; `strict` also asks for roles and manifests. -/
inductive Mode where
  | lite
  | strict
  deriving DecidableEq, Repr

instance : Spelled Mode where
  members := [.lite, .strict]
  spelling
    | .lite => "lite"
    | .strict => "strict"

def Mode.isStrict (mode : Mode) : Bool :=
  mode == .strict

inductive ModulePattern where
  | feature
  | layer
  | flat
  deriving DecidableEq, Repr

instance : Spelled ModulePattern where
  members := [.feature, .layer, .flat]
  spelling
    | .feature => "feature"
    | .layer => "layer"
    | .flat => "flat"

inductive StateOwnership where
  | singleOwner
  | shared
  | immutable
  deriving DecidableEq, Repr

instance : Spelled StateOwnership where
  members := [.singleOwner, .shared, .immutable]
  spelling
    | .singleOwner => "single-owner"
    | .shared => "shared"
    | .immutable => "immutable"

inductive SideEffects where
  | isolated
  | explicit
  | unrestricted
  deriving DecidableEq, Repr

instance : Spelled SideEffects where
  members := [.isolated, .explicit, .unrestricted]
  spelling
    | .isolated => "isolated"
    | .explicit => "explicit"
    | .unrestricted => "unrestricted"

inductive NamingSchema where
  | camelCase
  | pascalCase
  | snakeCase
  | kebabCase
  deriving DecidableEq, Repr

instance : Spelled NamingSchema where
  members := [.camelCase, .pascalCase, .snakeCase, .kebabCase]
  spelling
    | .camelCase => "camelCase"
    | .pascalCase => "PascalCase"
    | .snakeCase => "snake_case"
    | .kebabCase => "kebab-case"

/-- The roles a source file may declare. -/
def canonicalRoles : List String :=
  ["entry", "service", "state", "ui", "util", "test"]

/-- The ids of the patterns a contract may forbid. -/
def patternIds : List String :=
  ["dynamic-eval", "global-mutation", "wildcard-import", "console-log", "debugger-statement",
    "bare-except"]

/-- The contract's file, below the root of a project. -/
def contractFile : String := ".aocs.json"

/-- The README for agents, below the root of a project. -/
def readmeFile : String := "AGENTS.md"

structure Contract where
  version : String
  /-- In the order declared. -/
  languages : List String
  mode : Mode
  modulePattern : Option ModulePattern := none
  stateOwnership : Option StateOwnership := none
  sideEffects : Option SideEffects := none
  namingSchema : Option NamingSchema := none
  /-- Ids that stay permitted even where they are forbidden too. -/
  allowedPatterns : List String := []
  forbiddenPatterns : List String := []
  /-- The roles in use; none listed means every canonical role. -/
  roles : List String := []
  deriving DecidableEq, Repr

namespace Contract

/-- The contract that says no more than it has to. -/
def minimal (languages : List String) (mode : Mode) : Contract :=
  { version := "1.0", languages, mode }

/-- The forbidden ids that are not allowed again, in the order forbidden. -/
def enforcedPatterns (contract : Contract) : List String :=
  contract.forbiddenPatterns.filter fun id => !contract.allowedPatterns.contains id

/-- Whether a file may declare a role. -/
def allowsRole (contract : Contract) (role : String) : Bool :=
  canonicalRoles.contains role && (contract.roles.isEmpty || contract.roles.contains role)

end Contract

end RepoContract
