/-
# RepoContract.Proofs.Rule.Naming: what an entry is found under

Both tables look a name up without the white space around it and in lower case. They enter it in
other ways: a language under its name in lower case with the white space it has, the rules of a
language under the name as it stands. So whether an entry is ever found is decided when it is
entered, by its name alone: an entry that stands under its own key is found under all spellings of
its name, and any other under none.

The argument is that a key is looked up as it is (`plainName_plainName`), so that a name under
which something is found is one (`plainName_eq_iff`, `plainName_eq_lowerName_iff`). From this each
table has one equation for a lookup behind an entry (`byName?_add_spelling`,
`forLanguage?_enter_spelling`), and the rules that a contract selects follow from theirs.
`found_by_spelling` puts this together, and `entered_unfound` is a set of rules that never runs and
a language that is never found.
-/
import RepoContract.Proofs.Rule.Declared

namespace RepoContract

set_option autoImplicit false

variable {name spelling : String}

/-! ## Keys -/

instance (name spelling : String) : Decidable (Respelled name spelling) :=
  decidable_of_iff _ respelled_iff.symm

theorem lowerName_lowerName (name : String) : lowerName (lowerName name) = lowerName name := by
  rw [lowerName, lowerName, String.toList_ofList, Text.lower_lower]

theorem lowerName_plainName (name : String) : lowerName (plainName name) = plainName name := by
  rw [lowerName, plainName, String.toList_ofList, Text.lower_lower]

/-- A name is the key of some spelling exactly if it is its own key, and then it is the key of its
own spellings. -/
theorem plainName_eq_iff :
    plainName spelling = name ↔ plainName name = name ∧ Respelled name spelling := by
  rw [respelled_iff]
  constructor
  · rintro rfl
    exact ⟨plainName_plainName spelling, plainName_plainName spelling⟩
  · rintro ⟨isKey, same⟩
    rw [← same, isKey]

/-- A name in lower case is its own key unless there is white space around it. -/
theorem plainName_lowerName_iff :
    plainName (lowerName name) = lowerName name ↔ Text.IsTrim name.toList := by
  rw [plainName_of_lowerName (lowerName_lowerName name), plainName, lowerName,
    ← Text.lower_trim_eq_iff]
  exact String.ofList_inj

/-- A name is its own key exactly if there is no white space around it and lower case leaves it as
it is. -/
theorem plainName_eq_self_iff :
    plainName name = name ↔ Text.IsTrim name.toList ∧ lowerName name = name := by
  constructor
  · intro isKey
    have isLower : lowerName name = name := by
      rw [← isKey, lowerName_plainName]
    exact ⟨plainName_lowerName_iff.1 (by rw [isLower, isKey]), isLower⟩
  · rintro ⟨isTrim, isLower⟩
    rw [← isLower]
    exact plainName_lowerName_iff.2 isTrim

/-- A name in lower case is the key of the spellings of the name, unless there is white space around
it. -/
theorem plainName_eq_lowerName_iff :
    plainName spelling = lowerName name ↔
      Text.IsTrim name.toList ∧ Respelled name spelling := by
  have recased : Respelled (lowerName name) name := .recased (lowerName_lowerName name)
  rw [plainName_eq_iff, plainName_lowerName_iff]
  refine and_congr_right fun _ => ?_
  exact ⟨recased.symm.trans, recased.trans⟩

/-! ## Languages -/

namespace LanguageTable

/-- **A language is found under the spellings of its name, unless there is white space around it.**
Then nothing is found that was not found before. -/
theorem byName?_add_spelling {table : LanguageTable} (sound : table.Sound) (language : Language)
    (spelling : String) :
    (table.add language).byName? spelling =
      if Text.IsTrim language.name.toList ∧ Respelled language.name spelling then some language
      else table.byName? spelling := by
  rw [byName?_add sound]
  exact if_congr plainName_eq_lowerName_iff rfl rfl

end LanguageTable

/-! ## Rules -/

namespace RuleTable

variable {contract : Contract}

/-- **The rules of a language are found under the spellings of its name, if that is its own key.**
If it is not, nothing is found that was not found before. -/
theorem forLanguage?_enter_spelling (table : RuleTable) (name : String) (rules : List Rule)
    (spelling : String) :
    (table.enter name rules).forLanguage? spelling =
      if plainName name = name ∧ Respelled name spelling then some rules
      else table.forLanguage? spelling := by
  rw [← if_congr plainName_eq_iff rfl rfl, forLanguage?, enter, List.lookup_cons]
  by_cases isKey : plainName spelling = name
  · rw [if_pos isKey, beq_iff_eq.2 isKey]
  · rw [if_neg isKey, beq_eq_false_iff_ne.2 isKey]
    exact LanguageTable.lookup_filter_ne isKey table.byLanguage

/-- The rules of a declared name are selected one behind the other. -/
theorem infix_select {table : RuleTable} (declared : spelling ∈ contract.languages) :
    table.rulesOf spelling <:+: table.select contract := by
  have isKey : plainName spelling ∈ (firsts plainName contract.languages).map plainName :=
    mem_map_firsts_iff.2 (List.mem_map_of_mem declared)
  obtain ⟨first, isFirst, sameKey⟩ := List.mem_map.1 isKey
  have sameRules : table.rulesOf first = table.rulesOf spelling := by
    rw [rulesOf, rulesOf, forLanguage?, forLanguage?, sameKey]
  have inside : table.rulesOf first <:+:
      (firsts plainName contract.languages).flatMap table.rulesOf :=
    List.infix_of_mem_flatten (List.mem_map_of_mem isFirst)
  rw [select, selectFrom_eq_flatMap_firsts, ← sameRules]
  exact inside.trans (List.suffix_append _ _).isInfix

/-- What is entered changes nothing for a contract that does not find it. -/
theorem select_congr {table other : RuleTable} (sameUniversal : table.universal = other.universal)
    (same : ∀ spelling ∈ contract.languages,
      table.forLanguage? spelling = other.forLanguage? spelling) :
    table.select contract = other.select contract := by
  rw [select, select, selectFrom_eq_flatMap_firsts, selectFrom_eq_flatMap_firsts, sameUniversal]
  congr 1
  apply List.flatMap_congr
  intro spelling isFirst
  rw [rulesOf, rulesOf, same spelling ((sublist_firsts _ _).subset isFirst)]

end RuleTable

/-! ## Both tables -/

/-- **What is entered is found under every spelling of its name or under none.** A language that is
added to any others is found under the spellings of its name, unless there is white space around
that. The rules that are entered under a name are found under its spellings, if the name has neither
white space around it nor anything that lower case changes, and a contract that declares a spelling
selects them, one behind the other. Every other lookup, and every other selection, is what it was
before. -/
theorem found_by_spelling (languages : List Language) (language : Language) (table : RuleTable)
    (name : String) (rules : List Rule) :
    (∀ spelling, (LanguageTable.empty.addAll (languages ++ [language])).byName? spelling =
      if Text.IsTrim language.name.toList ∧ Respelled language.name spelling then some language
      else (LanguageTable.empty.addAll languages).byName? spelling) ∧
    (∀ spelling, (table.enter name rules).forLanguage? spelling =
      if (Text.IsTrim name.toList ∧ lowerName name = name) ∧ Respelled name spelling then some rules
      else table.forLanguage? spelling) ∧
    ∀ contract : Contract,
      if (Text.IsTrim name.toList ∧ lowerName name = name) ∧
          ∃ spelling ∈ contract.languages, Respelled name spelling then
        rules <:+: (table.enter name rules).select contract
      else (table.enter name rules).select contract = table.select contract := by
  have entered := table.forLanguage?_enter_spelling name rules
  simp only [← plainName_eq_self_iff]
  refine ⟨?_, entered, ?_⟩
  · intro spelling
    have sound := LanguageTable.sound_addAll languages
    rw [LanguageTable.addAll_concat]
    exact LanguageTable.byName?_add_spelling sound language spelling
  · intro contract
    split
    · next isFound =>
        obtain ⟨isKey, spelling, declared, respelled⟩ := isFound
        have itsRules : (table.enter name rules).rulesOf spelling = rules := by
          rw [RuleTable.rulesOf, entered, if_pos ⟨isKey, respelled⟩, Option.getD_some]
        have selected : (table.enter name rules).rulesOf spelling <:+:
            (table.enter name rules).select contract := RuleTable.infix_select declared
        rwa [itsRules] at selected
    · next notFound =>
        have sameUniversal : (table.enter name rules).universal = table.universal := rfl
        apply RuleTable.select_congr sameUniversal
        intro spelling declared
        rw [entered, if_neg]
        rintro ⟨isKey, respelled⟩
        exact notFound ⟨isKey, spelling, declared, respelled⟩

/-- A set of one rule that never reports anything. -/
def ownRules : List Rule :=
  [⟨"own", "Own", .error, fun _ => .pass⟩]

def lua : Language :=
  ⟨"Lua", ["lua"], ⟨["--".toList], [("--[[".toList, "]]".toList)]⟩, "^return"⟩

/-- A language with a capital in its name is found under another spelling, and the rules under its
name in lower case are selected for a third. -/
theorem found_by_spelling_lua :
    (LanguageTable.empty.addAll (LanguageTable.builtInLanguages ++ [lua])).byName? "\tLUA " =
        some lua ∧
      Respelled "lua" "LUA\n" ∧
      ownRules <:+: (RuleTable.builtIn.enter "lua" ownRules).select
        (Contract.minimal ["Python", "LUA\n"] .strict) := by
  obtain ⟨finds, -, selects⟩ := found_by_spelling LanguageTable.builtInLanguages lua
    RuleTable.builtIn "lua" ownRules
  have respelled : Respelled "lua" "LUA\n" := by decide +kernel
  have selected := selects (Contract.minimal ["Python", "LUA\n"] .strict)
  rw [if_pos ⟨by decide +kernel, "LUA\n", by simp [Contract.minimal], respelled⟩] at selected
  refine ⟨?_, respelled, selected⟩
  rw [finds, if_pos (by decide +kernel)]

/-- **An entry under a name that is not its own key is lost.** Rules that are entered under a name
with a capital are not found under that name and run for no contract that declares it, and a
language with white space in front of its name is not found under it. -/
theorem entered_unfound :
    let table := (RuleTable.ofUniversal []).enter "Lua" ownRules
    let padded := { lua with name := " Lua" }
    (table.forLanguage? "Lua").isNone = true ∧ (table.forLanguage? "lua").isNone = true ∧
      (table.select (Contract.minimal ["Lua"] .strict)).isEmpty = true ∧
      (LanguageTable.empty.add padded).byName? " Lua" = none ∧
      (LanguageTable.empty.add padded).byName? "lua" = none := by
  decide +kernel

end RepoContract
