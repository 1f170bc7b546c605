/-
# RepoContract.Proofs.Rule.Table: which rules a contract selects

A name is looked up in lower case and without blanks around it, and looking that up again comes to
the same (`plainName_plainName`). So the languages that a contract declares count once for each
such key, in the order in which the keys first come up (`newKeys`), and each key has its rules
(`selectFrom_eq`). Where no two rules of a table have the same id, no two selected rules have.

What holds of each built-in rule is shown by cases on what it checks (`builtIn_of_mem`).
-/
import Mathlib.Data.List.Nodup
import Mathlib.Data.List.Pairwise
import RepoContract.Proofs.Text.LowerCase
import RepoContract.Rule.BuiltIn

namespace RepoContract.RuleTable

set_option autoImplicit false

/-- All rules of a table. -/
def rules (table : RuleTable) : List Rule :=
  table.universal ++ table.byLanguage.flatMap (·.2)

/-- The keys of names in order, without those seen before. -/
def newKeys (seen : List String) : List String → List String
  | [] => []
  | name :: rest =>
    if plainName name ∈ seen then newKeys seen rest
    else plainName name :: newKeys (plainName name :: seen) rest

variable {table : RuleTable} {seen names : List String} {contract : Contract} {rule : Rule}

/-- The rules that are entered under a key as it stands. -/
def under (table : RuleTable) (key : String) : List Rule :=
  (table.byLanguage.lookup key).getD []

/-- **Each key that comes up has its rules once**, in the order of the keys. -/
theorem selectFrom_eq (table : RuleTable) (seen names : List String) :
    table.selectFrom seen names = (newKeys seen names).flatMap table.under := by
  induction names generalizing seen with
  | nil => rfl
  | cons name rest ih =>
      rw [selectFrom, newKeys]
      by_cases isSeen : plainName name ∈ seen
      · simp only [List.contains_eq_mem, isSeen, decide_true, if_true, ih]
      · simp only [List.contains_eq_mem, isSeen, decide_false, Bool.false_eq_true, if_false, ih,
          List.flatMap_cons, forLanguage?, plainName_plainName, under]

theorem not_mem_newKeys {key : String} (isSeen : key ∈ seen) : key ∉ newKeys seen names := by
  induction names generalizing seen with
  | nil => exact List.not_mem_nil
  | cons name rest ih =>
      rw [newKeys]
      split
      · exact ih isSeen
      · next notSeen =>
          refine List.not_mem_cons_of_ne_of_not_mem ?_ (ih (List.mem_cons_of_mem _ isSeen))
          rintro rfl
          exact notSeen isSeen

theorem nodup_newKeys : (newKeys seen names).Nodup := by
  induction names generalizing seen with
  | nil => exact List.nodup_nil
  | cons name rest ih =>
      rw [newKeys]
      split
      · exact ih
      · exact List.nodup_cons.2 ⟨not_mem_newKeys List.mem_cons_self, ih⟩

/-- The keys of more names are those of the first ones, and others behind them. -/
theorem newKeys_append (seen names further : List String) :
    ∃ others, newKeys seen (names ++ further) = newKeys seen names ++ others := by
  induction names generalizing seen with
  | nil => exact ⟨_, rfl⟩
  | cons name rest ih =>
      rw [List.cons_append, newKeys, newKeys]
      split
      · exact ih seen
      · obtain ⟨others, isMore⟩ := ih (plainName name :: seen)
        exact ⟨others, by rw [isMore, List.cons_append]⟩

/-- A contract that declares more languages selects no fewer rules. -/
theorem mem_select_append (selected : rule ∈ table.select contract) (further : List String) :
    rule ∈ table.select { contract with languages := contract.languages ++ further } := by
  rw [select, List.mem_append, selectFrom_eq] at selected ⊢
  refine selected.imp_right fun isFound => ?_
  obtain ⟨others, isMore⟩ := newKeys_append [] contract.languages further
  rw [isMore, List.flatMap_append]
  exact List.mem_append_left _ isFound

/-- The rules under a key are those of an entry. -/
theorem exists_entry_of_mem_under {key : String} (isRule : rule ∈ table.under key) :
    (key, table.under key) ∈ table.byLanguage := by
  cases found : table.byLanguage.lookup key with
  | none => simp [under, found] at isRule
  | some rules =>
      obtain ⟨front, rest, isTable, -⟩ := List.lookup_eq_some_iff.1 found
      rw [under, found, isTable]
      exact List.mem_append_right _ List.mem_cons_self

theorem mem_of_mem_selectFrom (selected : rule ∈ table.selectFrom seen names) :
    rule ∈ table.byLanguage.flatMap (·.2) := by
  rw [selectFrom_eq, List.mem_flatMap] at selected
  obtain ⟨key, -, isRule⟩ := selected
  exact List.mem_flatMap.2 ⟨_, exists_entry_of_mem_under isRule, isRule⟩

/-- A contract selects none but rules of the table. -/
theorem mem_rules_of_mem_select (selected : rule ∈ table.select contract) : rule ∈ table.rules :=
  List.mem_append.2 ((List.mem_append.1 selected).imp_right mem_of_mem_selectFrom)

/-- **No two selected rules have the same id**, where no two rules of the table have. -/
theorem nodup_ids_select (distinct : (table.rules.map (·.id)).Nodup) :
    ((table.select contract).map (·.id)).Nodup := by
  rw [rules, List.map_append, List.nodup_append'] at distinct
  obtain ⟨universal, entered, apart⟩ := distinct
  rw [List.map_flatMap, List.nodup_flatMap] at entered
  obtain ⟨eachEntered, pairs⟩ := entered
  rw [select, List.map_append, List.nodup_append']
  refine ⟨universal, ?_, fun id isUniversal selected => ?_⟩
  · rw [selectFrom_eq, List.map_flatMap, List.nodup_flatMap]
    refine ⟨fun key _ => ?_, nodup_newKeys.imp fun {key other} differ => ?_⟩
    · cases isUnder : table.under key with
      | nil => exact List.nodup_nil
      | cons rule rest =>
          rw [← isUnder]
          have isRule : rule ∈ table.under key := by
            rw [isUnder]
            exact List.mem_cons_self
          exact eachEntered _ (exists_entry_of_mem_under isRule)
    · intro id isHere isThere
      obtain ⟨rule, isRule, -⟩ := List.mem_map.1 isHere
      obtain ⟨otherRule, isOtherRule, -⟩ := List.mem_map.1 isThere
      have differEntries : (key, table.under key) ≠ (other, table.under other) := fun same =>
        differ (congrArg Prod.fst same)
      have symmetric : Std.Symm (Function.onFun List.Disjoint
          fun entry : String × List Rule => entry.2.map (·.id)) :=
        ⟨fun _ _ apart _ isHere isThere => apart isThere isHere⟩
      exact pairs.forall (exists_entry_of_mem_under isRule) (exists_entry_of_mem_under isOtherRule)
        differEntries isHere isThere
  · obtain ⟨rule, isRule, rfl⟩ := List.mem_map.1 selected
    exact apart isUniversal (List.mem_map_of_mem (mem_of_mem_selectFrom isRule))

theorem nodup_ids_builtIn : (builtIn.rules.map (·.id)).Nodup := by
  decide +kernel

/-! ## The built-in rules -/

open Rule

/-- The ids of the rules on companions, each with the language whose files it judges and what it
asks for there. -/
def companions : List (String × String × Companion) := [
  ("js-state-owner", "javascript", stateOwner),
  ("js-service-effects", "javascript", serviceEffects),
  ("ts-state-owner", "typescript", stateOwner),
  ("ts-service-effects", "typescript", serviceEffects),
  ("py-service-effects", "python", serviceEffects)]

/-- The built-in rules, by what they check, where patterns are compiled in some way. -/
inductive BuiltIn (compile : Pattern.Compiler) : Rule → Prop
  | contractPresent : BuiltIn compile
      ⟨"contract-present", "Repository contract present", .error, checkContractPresent⟩
  | contractSchema : BuiltIn compile
      ⟨"contract-schema", "Repository contract schema", .error, checkContractSchema⟩
  | roles : BuiltIn compile ⟨"file-roles", "File role declarations", .error, perFile judgeRoles⟩
  | hints : BuiltIn compile ⟨"inline-hints", "Inline hint syntax", .error, perFile judgeHints⟩
  | forbidden : BuiltIn compile
      ⟨"forbidden-patterns", "Forbidden code patterns", .error, checkForbidden⟩
  | manifests : BuiltIn compile
      ⟨"module-manifest", "Module manifest declarations", .warn, checkManifests compile⟩
  | readme : BuiltIn compile ⟨"agent-readme", "Agent README", .error, checkReadme⟩
  | companion {id language name : String} {asked : Companion} {severity : Severity}
      (isNamed : (id, language, asked) ∈ companions) :
      BuiltIn compile ⟨id, name, severity, checkCompanion language asked⟩

/-- **There are no other built-in rules.** -/
theorem builtIn_of_mem {compile : Pattern.Compiler} (isRule : rule ∈ (builtInWith compile).rules) :
    BuiltIn compile rule := by
  simp only [rules, builtInWith, universalRules, javascriptRules, typescriptRules, pythonRules,
    List.flatMap_cons, List.flatMap_nil, List.cons_append, List.nil_append, List.mem_cons,
    List.not_mem_nil, or_false] at isRule
  rcases isRule with rfl | rfl | rfl | rfl | rfl | rfl | rfl | rfl | rfl | rfl | rfl | rfl
  · exact .contractPresent
  · exact .contractSchema
  · exact .roles
  · exact .hints
  · exact .forbidden
  · exact .manifests
  · exact .readme
  all_goals exact .companion (by simp [companions])

end RepoContract.RuleTable
