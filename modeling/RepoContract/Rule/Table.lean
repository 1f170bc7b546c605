/-
# RepoContract.Rule.Table: which rules apply

Some rules apply to every project, others to those that declare a language. The rules of a
language are entered under a name as it stands and found by a name in lower case and without
blanks around it.
-/
import RepoContract.Rule.Basic

namespace RepoContract

set_option autoImplicit false

structure RuleTable where
  universal : List Rule
  byLanguage : List (String × List Rule)

namespace RuleTable

/-- The table of some rules for every project. -/
def ofUniversal (rules : List Rule) : RuleTable :=
  ⟨rules, []⟩

/-- Enter the rules of a language, over those it had. -/
def enter (table : RuleTable) (name : String) (rules : List Rule) : RuleTable :=
  { table with byLanguage := (name, rules) :: table.byLanguage.filter (·.1 ≠ name) }

/-- The rules of a language. -/
def forLanguage? (table : RuleTable) (name : String) : Option (List Rule) :=
  table.byLanguage.lookup (plainName name)

/-- The rules of languages in order, without those whose names were seen before. -/
def selectFrom (table : RuleTable) (seen : List String) : List String → List Rule
  | [] => []
  | name :: rest =>
    let key := plainName name
    if seen.contains key then selectFrom table seen rest
    else (table.forLanguage? key).getD [] ++ selectFrom table (key :: seen) rest

/-- The rules of a contract: the universal ones, then those of each language it declares, each
language once. -/
def select (table : RuleTable) (contract : Contract) : List Rule :=
  table.universal ++ table.selectFrom [] contract.languages

end RuleTable

end RepoContract
