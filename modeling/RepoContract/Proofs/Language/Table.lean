/-
# RepoContract.Proofs.Language.Table: the last entry wins

A table keeps every language that is added and two indexes of places. Adding a language moves the
entries of its name and of its extensions to the new place and leaves the others alone, so the two
indexes and the list drift apart: an earlier language stays in the list, and what it shares with a
later one leads to the later one.

The law that holds for every history is told without places. A lookup comes to the language that was
added last among those that have the name or the extension (`Latest`). It is carried by one step
(`byExtension?_add`, `byName?_add`), which needs that no index knows a place outside the list
(`Sound`), and no step breaks that.

The extensions of some names are sorted and hold what the languages so named have, nothing twice.
So they depend on the names only by the languages found (`extensionsFor_congr`), and lists of names
that are alike (`Alike`) have the same. `addAll_lastWins` puts this together.
-/
import Mathlib.Data.List.Basic
import Mathlib.Data.List.Induction
import Mathlib.Data.List.Sort
import Mathlib.Data.String.Basic
import RepoContract.Language.BuiltIn
import RepoContract.Pattern.Catalog
import RepoContract.Proofs.Text.LowerCase

namespace RepoContract

set_option autoImplicit false

/-! ## Names that are looked up alike -/

/-- The case of ASCII letters does not matter to a name. -/
theorem plainName_of_sameAsciiCase {name other : String} (same : sameAsciiCase name other = true) :
    plainName name = plainName other := by
  have letters : name.toList.map Char.toLower = other.toList.map Char.toLower := by
    simpa [sameAsciiCase] using same
  refine plainName_of_lowerName ?_
  rw [lowerName, lowerName, ← Text.lower_map_toLower, letters, Text.lower_map_toLower]

/-- A name with white space around another. -/
structure PadsName (name other : String) : Prop where
  surrounds : ∃ front back, other.toList = front ++ (name.toList ++ back) ∧
    (∀ c ∈ front, Text.isBlank c = true) ∧ ∀ c ∈ back, Text.isBlank c = true

theorem PadsName.plainName_eq {name other : String} (pads : PadsName name other) :
    plainName other = plainName name := by
  obtain ⟨front, back, isOther, frontBlank, backBlank⟩ := pads.surrounds
  rw [plainName, plainName, isOther, Text.trim_padded frontBlank backBlank]

namespace LanguageTable

variable {table : LanguageTable} {language : Language} {languages : List Language}
  {index : List (String × Nat)} {key extension : String} {place : Nat}
  {has : Language → Prop} {found : Option Language}

/-! ## The language added last -/

/-- What a search among languages in the order added comes to: the last that has some property, and
none if none has it. -/
inductive Latest (has : Language → Prop) (languages : List Language) : Option Language → Prop
  | found {earlier later : List Language} {language : Language}
      (isSplit : languages = earlier ++ language :: later) (isHere : has language)
      (keepsIt : ∀ other ∈ later, ¬ has other) : Latest has languages (some language)
  | absent (nowhere : ∀ language ∈ languages, ¬ has language) : Latest has languages none

theorem Latest.add_of_has (isHere : has language) :
    Latest has (languages ++ [language]) (some language) :=
  .found rfl isHere (List.forall_mem_nil _)

theorem Latest.add_of_lacks (latest : Latest has languages found) (lacks : ¬ has language) :
    Latest has (languages ++ [language]) found := by
  cases latest with
  | @found earlier later before isSplit isHere keepsIt =>
      have isLonger : languages ++ [language] = earlier ++ before :: (later ++ [language]) := by
        rw [isSplit, List.append_assoc, List.cons_append]
      refine .found isLonger isHere ?_
      rw [List.forall_mem_append, List.forall_mem_singleton]
      exact ⟨keepsIt, lacks⟩
  | absent nowhere =>
      refine .absent ?_
      rw [List.forall_mem_append, List.forall_mem_singleton]
      exact ⟨nowhere, lacks⟩

/-- The language that is found has the property and was added. -/
theorem Latest.spec (latest : Latest has languages (some language)) :
    language ∈ languages ∧ has language := by
  cases latest with
  | found isSplit isHere _ =>
      rw [isSplit]
      exact ⟨List.mem_append_right _ List.mem_cons_self, isHere⟩

/-- Something is found where some language has the property. -/
theorem Latest.exists_of_mem (latest : Latest has languages found) (isAdded : language ∈ languages)
    (isHere : has language) : ∃ last, found = some last := by
  cases latest with
  | found _ _ _ => exact ⟨_, rfl⟩
  | absent nowhere => exact absurd isHere (nowhere language isAdded)

/-! ## Indexes -/

/-- Dropping the entries of one key leaves those of the others. -/
theorem lookup_filter_ne {α : Type} {other : String} (differs : other ≠ key)
    (index : List (String × α)) : (index.filter (·.1 ≠ key)).lookup other = index.lookup other := by
  induction index with
  | nil => rfl
  | cons entry rest ih =>
      obtain ⟨first, entered⟩ := entry
      by_cases isFirst : first = key
      · have isOther : (other == first) = false := by
          rw [isFirst]
          exact beq_eq_false_iff_ne.2 differs
        rw [List.filter_cons_of_neg (by simp [isFirst]), ih, List.lookup_cons, isOther]
      · rw [List.filter_cons_of_pos (by simp [isFirst]), List.lookup_cons, List.lookup_cons, ih]

theorem lookup_enter (key other : String) (place : Nat) (index : List (String × Nat)) :
    (enter key place index).lookup other =
      if other = key then some place else index.lookup other := by
  rw [enter, List.lookup_cons]
  by_cases isKey : other = key
  · rw [if_pos isKey, beq_iff_eq.2 isKey]
  · rw [if_neg isKey, beq_eq_false_iff_ne.2 isKey]
    exact lookup_filter_ne isKey index

/-- An index in which some keys have been entered with one place. -/
def enterAll (keys : List String) (place : Nat) (index : List (String × Nat)) :
    List (String × Nat) :=
  keys.foldl (fun index key => enter key place index) index

theorem lookup_enterAll (keys : List String) (other : String) (place : Nat)
    (index : List (String × Nat)) :
    (enterAll keys place index).lookup other =
      if other ∈ keys then some place else index.lookup other := by
  induction keys generalizing index with
  | nil => rw [if_neg List.not_mem_nil]; rfl
  | cons key rest ih =>
      have onward : enterAll (key :: rest) place index =
          enterAll rest place (enter key place index) := rfl
      rw [onward, ih, lookup_enter]
      by_cases inRest : other ∈ rest <;> by_cases isKey : other = key <;> simp [inRest, isKey]

theorem mem_enterAll (keys : List String) {entry : String × Nat}
    (isEntry : entry ∈ enterAll keys place index) : entry.2 = place ∨ entry ∈ index := by
  induction keys generalizing index with
  | nil => exact .inr isEntry
  | cons key rest ih =>
      rcases ih isEntry with isNew | isEntered
      · exact .inl isNew
      · rcases List.mem_cons.1 isEntered with rfl | isOld
        · exact .inl rfl
        · exact .inr (List.mem_of_mem_filter isOld)

/-! ## Adding a language -/

/-- Every place that the indexes know is that of a language. -/
def Sound (table : LanguageTable) : Prop :=
  ∀ entry ∈ table.names ++ table.extensions, entry.2 < table.languages.length

theorem sound_empty : empty.Sound :=
  List.forall_mem_nil _

theorem addAll_concat (table : LanguageTable) (languages : List Language) (language : Language) :
    table.addAll (languages ++ [language]) = (table.addAll languages).add language :=
  List.foldl_concat ..

/-- **Adding a language keeps the indexes inside the list.** -/
theorem Sound.add (sound : table.Sound) (language : Language) : (table.add language).Sound := by
  have room : (table.add language).languages.length = table.languages.length + 1 :=
    List.length_append
  intro entry isEntry
  rw [room]
  rcases List.mem_append.1 isEntry with isName | isExtension
  · rcases mem_enterAll [lowerName language.name] isName with isNew | isOld
    · omega
    · exact Nat.lt_succ_of_lt (sound entry (List.mem_append_left _ isOld))
  · rcases mem_enterAll language.extensions isExtension with isNew | isOld
    · omega
    · exact Nat.lt_succ_of_lt (sound entry (List.mem_append_right _ isOld))

theorem sound_addAll (languages : List Language) : (empty.addAll languages).Sound := by
  induction languages using List.reverseRecOn with
  | nil => exact sound_empty
  | append_singleton before language ih =>
      rw [addAll_concat]
      exact ih.add language

theorem languages_addAll (languages : List Language) :
    (empty.addAll languages).languages = languages := by
  induction languages using List.reverseRecOn with
  | nil => rfl
  | append_singleton before language ih =>
      rw [addAll_concat]
      exact congrArg (· ++ [language]) ih

/-- What is entered with the new place leads to the new language, and everything else to where it
led before. -/
theorem at?_enterAll {index : List (String × Nat)}
    (inside : ∀ entry ∈ index, entry.2 < table.languages.length) (keys : List String)
    (key : String) (language : Language) :
    (table.add language).at? (enterAll keys table.languages.length index) key =
      if key ∈ keys then some language else table.at? index key := by
  have isLonger : (table.add language).languages = table.languages ++ [language] := rfl
  rw [at?, lookup_enterAll, isLonger]
  split_ifs with isNew
  · rw [Option.bind_some, List.getElem?_concat_length]
  · rw [at?]
    cases isOld : index.lookup key with
    | none => rfl
    | some place =>
        obtain ⟨front, rest, isIndex, -⟩ := List.lookup_eq_some_iff.1 isOld
        have isEntry : (key, place) ∈ index := by
          rw [isIndex]
          exact List.mem_append_right _ List.mem_cons_self
        rw [Option.bind_some, Option.bind_some, List.getElem?_append_left (inside _ isEntry)]

theorem byExtension?_add (sound : table.Sound) (language : Language) (extension : String) :
    (table.add language).byExtension? extension =
      if extension ∈ language.extensions then some language else table.byExtension? extension :=
  at?_enterAll (fun entry isEntry => sound entry (List.mem_append_right _ isEntry))
    language.extensions extension language

theorem byName?_add (sound : table.Sound) (language : Language) (name : String) :
    (table.add language).byName? name =
      if plainName name = lowerName language.name then some language else table.byName? name := by
  have entered := at?_enterAll (fun entry isEntry => sound entry (List.mem_append_left _ isEntry))
    [lowerName language.name] (plainName name) language
  exact entered.trans (if_congr List.mem_singleton rfl rfl)

/-- **An extension leads to the language with it that was added last.** -/
theorem latest_byExtension? (languages : List Language) (extension : String) :
    Latest (extension ∈ ·.extensions) languages ((empty.addAll languages).byExtension? extension) := by
  induction languages using List.reverseRecOn with
  | nil => exact .absent (List.forall_mem_nil _)
  | append_singleton before language ih =>
      rw [addAll_concat, byExtension?_add (sound_addAll before)]
      split_ifs with isHere
      · exact .add_of_has isHere
      · exact ih.add_of_lacks isHere

/-- **A name leads to the language with it that was added last.** -/
theorem latest_byName? (languages : List Language) (name : String) :
    Latest (plainName name = lowerName ·.name) languages ((empty.addAll languages).byName? name) := by
  induction languages using List.reverseRecOn with
  | nil => exact .absent (List.forall_mem_nil _)
  | append_singleton before language ih =>
      rw [addAll_concat, byName?_add (sound_addAll before)]
      split_ifs with isHere
      · exact .add_of_has isHere
      · exact ih.add_of_lacks isHere

/-- What an index leads to is a language of the table. -/
theorem mem_of_at? (found : table.at? index key = some language) : language ∈ table.languages := by
  obtain ⟨place, -, isThere⟩ := Option.bind_eq_some_iff.1 found
  exact List.mem_of_getElem? isThere

/-! ## The extensions of some names -/

theorem mem_insertSorted_iff {text other : String} {texts : List String} :
    text ∈ insertSorted other texts ↔ text = other ∨ text ∈ texts := by
  induction texts with
  | nil => rw [insertSorted, List.mem_singleton, List.mem_nil_iff, or_false]
  | cons first rest ih =>
      rw [insertSorted]
      split_ifs with before same
      · exact List.mem_cons
      · subst same
        simp
      · rw [List.mem_cons, List.mem_cons, ih, or_left_comm]

theorem pairwise_insertSorted {texts : List String} (sorted : texts.Pairwise (· < ·))
    (text : String) : (insertSorted text texts).Pairwise (· < ·) := by
  induction sorted with
  | nil => exact List.pairwise_singleton ..
  | @cons first rest before sorted ih =>
      rw [insertSorted]
      split_ifs with isBefore same
      · refine List.pairwise_cons.2 ⟨?_, List.pairwise_cons.2 ⟨before, sorted⟩⟩
        rw [List.forall_mem_cons]
        exact ⟨isBefore, fun other isOther => String.lt_trans isBefore (before other isOther)⟩
      · exact List.pairwise_cons.2 ⟨before, sorted⟩
      · refine List.pairwise_cons.2 ⟨fun other isOther => ?_, ih⟩
        rcases mem_insertSorted_iff.1 isOther with rfl | inRest
        · exact lt_of_le_of_ne (not_lt.1 isBefore) (Ne.symm same)
        · exact before other inRest

/-- The extensions of some names are in order, each once. -/
theorem pairwise_extensionsFor (table : LanguageTable) (names : List String) :
    (table.extensionsFor names).Pairwise (· < ·) := by
  rw [extensionsFor]
  generalize names.flatMap _ = texts
  induction texts with
  | nil => exact .nil
  | cons text rest ih => exact pairwise_insertSorted ih text

/-- The extensions of some names are those of the languages that these name. -/
theorem mem_extensionsFor_iff {names : List String} :
    extension ∈ table.extensionsFor names ↔ ∃ name ∈ names, ∃ language,
      table.byName? name = some language ∧ extension ∈ language.extensions := by
  have sorted (texts : List String) :
      extension ∈ texts.foldr insertSorted [] ↔ extension ∈ texts := by
    induction texts with
    | nil => rfl
    | cons first rest ih => rw [List.foldr_cons, mem_insertSorted_iff, ih, List.mem_cons]
  rw [extensionsFor, sorted, List.mem_flatMap]
  refine exists_congr fun name => and_congr_right fun _ => ?_
  cases table.byName? name <;> simp

/-- The extensions of some names are those of languages. -/
theorem exists_language_of_mem_extensionsFor {names : List String}
    (isListed : extension ∈ table.extensionsFor names) :
    ∃ language ∈ table.languages, extension ∈ language.extensions := by
  obtain ⟨_, -, language, found, isHere⟩ := mem_extensionsFor_iff.1 isListed
  exact ⟨language, mem_of_at? found, isHere⟩

/-- More names have no fewer extensions. -/
theorem mem_extensionsFor_append {names : List String}
    (isListed : extension ∈ table.extensionsFor names) (further : List String) :
    extension ∈ table.extensionsFor (names ++ further) := by
  obtain ⟨name, isName, named⟩ := mem_extensionsFor_iff.1 isListed
  exact mem_extensionsFor_iff.2 ⟨name, List.mem_append_left _ isName, named⟩

/-- Names that find the same languages have the same extensions. -/
theorem extensionsFor_congr {names others : List String}
    (same : ∀ language, (∃ name ∈ names, table.byName? name = some language) ↔
      ∃ name ∈ others, table.byName? name = some language) :
    table.extensionsFor names = table.extensionsFor others := by
  refine (pairwise_extensionsFor table names).eq_of_mem_iff (pairwise_extensionsFor table others)
    fun extension => ?_
  have byLanguage (names : List String) : extension ∈ table.extensionsFor names ↔
      ∃ language, (∃ name ∈ names, table.byName? name = some language) ∧
        extension ∈ language.extensions := by
    rw [mem_extensionsFor_iff]
    constructor
    · rintro ⟨name, isName, language, found, isHere⟩
      exact ⟨language, ⟨name, isName, found⟩, isHere⟩
    · rintro ⟨language, ⟨name, isName, found⟩, isHere⟩
      exact ⟨name, isName, language, found, isHere⟩
  rw [byLanguage, byLanguage]
  simp only [same]

/-- Lists of names that differ in their order, by repetitions, in the case of ASCII letters, by
white space around a name or by names that a table does not know. -/
inductive Alike (table : LanguageTable) : List String → List String → Prop
  | permuted {names others : List String} (sameNames : names.Perm others) : Alike table names others
  | repeated {name : String} {names : List String} (isNamed : name ∈ names) :
      Alike table names (name :: names)
  | recased {name other : String} (names : List String) (same : sameAsciiCase name other = true) :
      Alike table (name :: names) (other :: names)
  | padded {name other : String} (names : List String) (pads : PadsName name other) :
      Alike table (name :: names) (other :: names)
  | unknown {name : String} (names : List String) (absent : table.byName? name = none) :
      Alike table names (name :: names)
  | symm {names others : List String} (alike : Alike table names others) : Alike table others names
  | trans {names others more : List String} (first : Alike table names others)
      (second : Alike table others more) : Alike table names more

/-- Lists of names that are alike find the same languages. -/
theorem Alike.finds_iff {names others : List String} (alike : table.Alike names others)
    (language : Language) :
    (∃ name ∈ names, table.byName? name = some language) ↔
      ∃ name ∈ others, table.byName? name = some language := by
  have byPlainName {name other : String} (same : plainName name = plainName other) :
      table.byName? name = table.byName? other := by
    rw [byName?, byName?, same]
  induction alike with
  | permuted sameNames => simp only [sameNames.mem_iff]
  | @repeated name names isNamed =>
      rw [List.exists_mem_cons_iff, or_iff_right_of_imp]
      intro found
      exact ⟨name, isNamed, found⟩
  | recased names same =>
      rw [List.exists_mem_cons_iff, List.exists_mem_cons_iff,
        byPlainName (plainName_of_sameAsciiCase same)]
  | padded names pads =>
      rw [List.exists_mem_cons_iff, List.exists_mem_cons_iff, byPlainName pads.plainName_eq]
  | unknown names absent =>
      rw [List.exists_mem_cons_iff, absent, or_iff_right_of_imp]
      exact nofun
  | symm _ ih => exact ih.symm
  | trans _ _ first second => exact first.trans second

/-- **The language added last has the name and the extensions.** However languages are added, a
table keeps them in order, its indexes know no place outside the list, and a lookup comes to the
language added last among those that have the extension, or whose name in lower case is the one
looked up without white space around it and in lower case. The extensions of some names ascend, they
are those of the languages that the names find, and lists of names that are alike have the same. -/
theorem addAll_lastWins (languages : List Language) :
    let table := empty.addAll languages
    table.languages = languages ∧
      (∀ entry ∈ table.names ++ table.extensions, entry.2 < table.languages.length) ∧
      (∀ extension, Latest (extension ∈ ·.extensions) languages (table.byExtension? extension)) ∧
      (∀ name, Latest (plainName name = lowerName ·.name) languages (table.byName? name)) ∧
      ∀ names,
        (table.extensionsFor names).Pairwise (· < ·) ∧
        (∀ extension, extension ∈ table.extensionsFor names ↔ ∃ name ∈ names, ∃ language,
          table.byName? name = some language ∧ extension ∈ language.extensions) ∧
        ∀ others, table.Alike names others →
          table.extensionsFor names = table.extensionsFor others := by
  intro table
  refine ⟨languages_addAll languages, sound_addAll languages, latest_byExtension? languages,
    latest_byName? languages, ?_⟩
  intro names
  refine ⟨pairwise_extensionsFor table names, fun _ => mem_extensionsFor_iff, ?_⟩
  intro others alike
  exact extensionsFor_congr alike.finds_iff

/-- A language that is added twice with a page in between, which takes over one of its
extensions. -/
def overlapping : List Language := [
  ⟨"Web", ["js", "html"], slashComments, ""⟩,
  ⟨"page", ["html"], ⟨[], []⟩, ""⟩,
  ⟨"WEB", ["ts", "js"], slashComments, ""⟩]

/-- The later language has the name and the extension that both have, and neither repetitions nor
spellings nor a name that is not known make a difference. -/
theorem addAll_lastWins_overlapping :
    let table := empty.addAll overlapping
    (table.byExtension? "js").map (·.name) = some "WEB" ∧
      (table.byExtension? "html").map (·.name) = some "page" ∧
      table.Alike ["page", "web"] ["css", "\tWeb ", "page", "page"] ∧
      table.extensionsFor ["css", "\tWeb ", "page", "page"] = ["html", "js", "ts"] := by
  intro table
  have alike : table.Alike ["page", "web"] ["css", "\tWeb ", "page", "page"] := by
    have twice : table.Alike ["page", "web"] ["web", "page", "page"] :=
      .trans (.repeated (List.mem_cons_self : "page" ∈ ["page", "web"])) (.permuted (by decide))
    have respelled : table.Alike ["web", "page", "page"] ["\tWeb ", "page", "page"] :=
      .trans (.recased _ (by decide : sameAsciiCase "web" "Web" = true))
        (.padded _ ⟨['\t'], [' '], by decide, List.forall_mem_singleton.2 rfl,
          List.forall_mem_singleton.2 rfl⟩)
    exact .trans twice (.trans respelled (.unknown _ (by decide +kernel)))
  refine ⟨by decide +kernel, by decide +kernel, alike, ?_⟩
  obtain ⟨-, -, -, -, extensions⟩ := addAll_lastWins overlapping
  rw [← (extensions _).2.2 _ alike]
  decide +kernel

end LanguageTable

end RepoContract
