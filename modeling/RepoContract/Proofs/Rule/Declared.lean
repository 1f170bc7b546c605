/-
# RepoContract.Proofs.Rule.Declared: each declared language counts once

A contract may declare a language more than once, in other letter cases, with white space around it,
or declare one that no rules are entered for. The selection goes by the names whose key is new
(`selectFrom_eq_flatMap_firsts`), so it follows from the laws of `firsts` what a list of languages
may look like.

A declaration may be dropped when the same name stands in front of it in some spelling, or when
there are no rules for it (`Drops`), one after the other in any number. And contracts that declare
the same known languages select the same rules up to order (`SameKnown`): only the order in which
the keys first come up differs. `select_eachOnce` puts this together.

A name is spelled in another way when only letter case and white space around it differ
(`Respelled`). These are the names with the same key (`respelled_iff`).
-/
import Mathlib.Data.List.Perm.Lattice
import Mathlib.Logic.Relation
import RepoContract.Proofs.Firsts
import RepoContract.Proofs.Language.Table
import RepoContract.Proofs.Rule.Table

namespace RepoContract

set_option autoImplicit false

/-! ## Spellings of a name -/

/-- Names that differ in letter case and in the white space around them at most. -/
inductive Respelled : String → String → Prop
  | recased {name other : String} (same : lowerName name = lowerName other) : Respelled name other
  | padded {name other : String} (pads : PadsName name other) : Respelled name other
  | symm {name other : String} (respelled : Respelled name other) : Respelled other name
  | trans {name other more : String} (first : Respelled name other)
      (second : Respelled other more) : Respelled name more

/-- A name pads what is left of it when it is trimmed. -/
theorem padsName_trim (name : String) : PadsName (String.ofList (Text.trim name.toList)) name := by
  obtain ⟨front, back, isName, frontBlank, backBlank⟩ := Text.exists_padding name.toList
  exact ⟨front, back, by rwa [String.toList_ofList], frontBlank, backBlank⟩

/-- **The spellings of a name are the names with its key.** -/
theorem respelled_iff {name other : String} :
    Respelled name other ↔ plainName name = plainName other := by
  constructor
  · intro respelled
    induction respelled with
    | recased same => exact plainName_of_lowerName same
    | padded pads => exact pads.plainName_eq.symm
    | symm _ ih => exact ih.symm
    | trans _ _ first second => exact first.trans second
  · intro same
    have trimmed : lowerName (String.ofList (Text.trim name.toList)) =
        lowerName (String.ofList (Text.trim other.toList)) := by
      rw [lowerName, lowerName, String.toList_ofList, String.toList_ofList]
      exact same
    exact .trans (.symm (.padded (padsName_trim name)))
      (.trans (.recased trimmed) (.padded (padsName_trim other)))

namespace RuleTable

variable {table : RuleTable} {names others : List String}

/-! ## The names whose key is new -/

/-- The rules of a name, none if it is not known. -/
def rulesOf (table : RuleTable) (name : String) : List Rule :=
  (table.forLanguage? name).getD []

/-- Whether rules are entered under a key. -/
def knows (table : RuleTable) (key : String) : Bool :=
  (table.byLanguage.lookup key).isSome

/-- One more name adds its key when that is new. -/
theorem newKeys_concat (seen names : List String) (name : String) :
    newKeys seen (names ++ [name]) = newKeys seen names ++
      if plainName name ∈ seen ∨ plainName name ∈ names.map plainName then []
      else [plainName name] := by
  induction names generalizing seen with
  | nil => simp [newKeys]
  | cons first rest ih =>
      rw [List.cons_append, newKeys, newKeys]
      split
      · next isSeen =>
          -- a name with the key of the first one has been seen before it
          have sameKeys : (plainName name ∈ seen ∨ plainName name ∈ (first :: rest).map plainName) ↔
              (plainName name ∈ seen ∨ plainName name ∈ rest.map plainName) := by
            rw [List.map_cons, List.mem_cons]
            constructor
            · rintro (isOld | same | inRest)
              · exact .inl isOld
              · exact .inl (same ▸ isSeen)
              · exact .inr inRest
            · exact Or.imp_right .inr
          rw [ih]
          simp only [sameKeys]
      · rw [ih, List.cons_append]
        simp only [List.map_cons, List.mem_cons, or_assoc, or_left_comm]

theorem newKeys_eq_map_firsts (names : List String) :
    newKeys [] names = (firsts plainName names).map plainName := by
  induction names using List.reverseRecOn with
  | nil => rfl
  | append_singleton names name ih =>
      rw [newKeys_concat, firsts_concat, List.map_append, ih]
      congr 1
      simp only [List.not_mem_nil, false_or]
      split <;> rfl

/-- **Each name whose key is new has its rules**, in the order declared. -/
theorem selectFrom_eq_flatMap_firsts (table : RuleTable) (names : List String) :
    table.selectFrom [] names = (firsts plainName names).flatMap table.rulesOf := by
  rw [selectFrom_eq, newKeys_eq_map_firsts, List.flatMap_map]
  rfl

/-- The names that are not known add nothing. -/
theorem selectFrom_filter_knows (table : RuleTable) (names : List String) :
    table.selectFrom [] (names.filter fun name => table.knows (plainName name)) =
      table.selectFrom [] names := by
  rw [selectFrom_eq_flatMap_firsts, selectFrom_eq_flatMap_firsts, firsts_filter]
  induction firsts plainName names with
  | nil => rfl
  | cons name rest ih =>
      rw [List.filter_cons]
      split
      · rw [List.flatMap_cons, List.flatMap_cons, ih]
      · next notKnown =>
          have noRules : table.rulesOf name = [] := by
            rw [knows, Bool.not_eq_true, Option.isSome_eq_false_iff,
              Option.isNone_iff_eq_none] at notKnown
            rw [rulesOf, forLanguage?, notKnown, Option.getD_none]
          rw [List.flatMap_cons, noRules, List.nil_append, ih]

/-! ## Declarations that may be dropped -/

/-- One declaration is dropped that repeats another in some spelling, or for which no rules are
entered. -/
inductive Drops (table : RuleTable) : List String → List String → Prop
  | repeated {front back : List String} {name : String}
      (isRepeated : ∃ earlier ∈ front, Respelled earlier name) :
      Drops table (front ++ name :: back) (front ++ back)
  | unknown {front back : List String} {name : String}
      (absent : table.forLanguage? name = none) :
      Drops table (front ++ name :: back) (front ++ back)

/-- **Dropping one such declaration changes nothing.** -/
theorem Drops.selectFrom_eq (drops : table.Drops names others) :
    table.selectFrom [] names = table.selectFrom [] others := by
  cases drops with
  | @repeated front back name isRepeated =>
      obtain ⟨earlier, isEarlier, respelled⟩ := isRepeated
      have isOld : plainName name ∈ front.map plainName :=
        List.mem_map.2 ⟨earlier, isEarlier, respelled_iff.1 respelled⟩
      rw [selectFrom_eq_flatMap_firsts, selectFrom_eq_flatMap_firsts, firsts_drop isOld]
  | @unknown front back name absent =>
      have isUnknown : table.knows (plainName name) = false := by
        rw [forLanguage?] at absent
        rw [knows, absent, Option.isSome_none]
      rw [← selectFrom_filter_knows, ← selectFrom_filter_knows table (front ++ back),
        List.filter_append, List.filter_append, List.filter_cons_of_neg (by simp [isUnknown])]

/-- Nor does dropping any number of them, one after the other. -/
theorem selectFrom_eq_of_drops (drops : Relation.ReflTransGen table.Drops names others) :
    table.selectFrom [] names = table.selectFrom [] others := by
  induction drops with
  | refl => rfl
  | tail _ last ih => exact ih.trans last.selectFrom_eq

/-! ## The order of the declarations -/

/-- Lists of names that have the same keys among those for which rules are entered. -/
def SameKnown (table : RuleTable) (names others : List String) : Prop :=
  ∀ key, (∃ name ∈ names, plainName name = key ∧ table.forLanguage? name ≠ none) ↔
    ∃ name ∈ others, plainName name = key ∧ table.forLanguage? name ≠ none

/-- The keys of the known names, in the order in which they come up. -/
def knownKeys (table : RuleTable) (names : List String) : List String :=
  (firsts plainName (names.filter fun name => table.knows (plainName name))).map plainName

theorem mem_knownKeys_iff {key : String} :
    key ∈ table.knownKeys names ↔
      ∃ name ∈ names, plainName name = key ∧ table.forLanguage? name ≠ none := by
  rw [knownKeys, mem_map_firsts_iff, List.mem_map]
  simp only [List.mem_filter, knows, Option.isSome_iff_ne_none, forLanguage?]
  exact exists_congr fun name => by rw [and_assoc, and_comm (a := _ ≠ none)]

theorem nodup_knownKeys (names : List String) : (table.knownKeys names).Nodup :=
  nodup_map_firsts _ _

theorem selectFrom_eq_flatMap_knownKeys (table : RuleTable) (names : List String) :
    table.selectFrom [] names = (table.knownKeys names).flatMap table.under := by
  rw [← selectFrom_filter_knows, selectFrom_eq_flatMap_firsts, knownKeys, List.flatMap_map]
  rfl

/-- **The order of the declarations is that of the rules and nothing else.** -/
theorem SameKnown.selectFrom_perm (same : table.SameKnown names others) :
    (table.selectFrom [] names).Perm (table.selectFrom [] others) := by
  have keys : (table.knownKeys names).Perm (table.knownKeys others) := by
    refine (List.perm_ext_iff_of_nodup (nodup_knownKeys names) (nodup_knownKeys others)).2 ?_
    intro key
    rw [mem_knownKeys_iff, mem_knownKeys_iff, same key]
  rw [selectFrom_eq_flatMap_knownKeys, selectFrom_eq_flatMap_knownKeys]
  exact keys.flatMap_right table.under

/-- **Each declared language counts once, where it comes up first.** A contract selects the
universal rules, and behind them those of each name whose key, the name without white space around
it and in lower case, none in front of it has. So declarations that repeat a name in any spelling,
and names without rules, may be dropped in any number, and contracts that declare the same known
languages select the same rules up to order. -/
theorem select_eachOnce (table : RuleTable) (contract : Contract) :
    table.select contract = table.universal ++
        (firsts plainName contract.languages).flatMap
          (fun name => (table.forLanguage? name).getD []) ∧
      (∀ names, Relation.ReflTransGen table.Drops contract.languages names →
        table.select { contract with languages := names } = table.select contract) ∧
      ∀ other : Contract, table.SameKnown contract.languages other.languages →
        (table.select contract).Perm (table.select other) := by
  refine ⟨?_, fun names drops => ?_, fun other same => ?_⟩
  · rw [select, selectFrom_eq_flatMap_firsts]
    rfl
  · rw [select, select, selectFrom_eq_of_drops drops]
  · exact same.selectFrom_perm.append_left table.universal

/-- Two languages that are declared twice each, in several spellings, with one without rules in
between. -/
def spelledTwice : List String :=
  ["Python", "cobol", " JavaScript\t", "python ", "JAVASCRIPT"]

/-- Two declarations are left when those that may be dropped are, the rules of the language that
comes up first stand first, and in another order of the languages they are the same rules. -/
theorem select_eachOnce_spelledTwice :
    let contract := Contract.minimal spelledTwice .strict
    let other := Contract.minimal ["javascript", "ada", "PYTHON"] .lite
    Relation.ReflTransGen builtIn.Drops spelledTwice ["Python", " JavaScript\t"] ∧
      builtIn.select { contract with languages := ["Python", " JavaScript\t"] } =
        builtIn.select contract ∧
      ((builtIn.select contract).map (·.id)).drop 7 =
        ["py-service-effects", "js-state-owner", "js-service-effects"] ∧
      builtIn.SameKnown spelledTwice other.languages ∧
      (builtIn.select contract).Perm (builtIn.select other) := by
  intro contract other
  have drops : Relation.ReflTransGen builtIn.Drops spelledTwice ["Python", " JavaScript\t"] := by
    have unknown : builtIn.Drops
        (["Python"] ++ "cobol" :: [" JavaScript\t", "python ", "JAVASCRIPT"])
        (["Python"] ++ [" JavaScript\t", "python ", "JAVASCRIPT"]) :=
      .unknown (by decide +kernel)
    have padded : builtIn.Drops (["Python", " JavaScript\t"] ++ "python " :: ["JAVASCRIPT"])
        (["Python", " JavaScript\t"] ++ ["JAVASCRIPT"]) :=
      .repeated ⟨"Python", by decide, respelled_iff.2 (by decide +kernel)⟩
    have recased : builtIn.Drops (["Python", " JavaScript\t"] ++ "JAVASCRIPT" :: [])
        (["Python", " JavaScript\t"] ++ []) :=
      .repeated ⟨" JavaScript\t", by decide, respelled_iff.2 (by decide +kernel)⟩
    exact ((Relation.ReflTransGen.single unknown).tail padded).tail recased
  have same : builtIn.SameKnown spelledTwice other.languages := by
    have known : builtIn.knownKeys spelledTwice = ["python", "javascript"] := by decide +kernel
    have otherKnown : builtIn.knownKeys other.languages = ["javascript", "python"] := by
      decide +kernel
    intro key
    rw [← mem_knownKeys_iff, ← mem_knownKeys_iff, known, otherKnown, List.mem_pair, List.mem_pair,
      or_comm]
  obtain ⟨-, fewer, reordered⟩ := select_eachOnce builtIn contract
  exact ⟨drops, fewer _ drops, by decide +kernel, same, reordered other same⟩

end RuleTable

end RepoContract
