/-
# RepoContract.Proofs.Contract.RoundTrip: a contract that is written loads as itself

Writing leaves out what says nothing, and loading goes through the reader, the schema and the
decoder before it yields a contract. The three meet in the document: what is written describes
the contract (`describes_toOutput`), conforms to the schema when the contract is admissible
(`Describes.conforming`), and is read back as it stands (`readable_toOutput`).

A contract is `Admissible` when its version is visible, it names a language, and its patterns and
roles are known ones. Every contract that loads is (`Describes.admissible`), and so is that of
every starter.
-/
import Mathlib.Data.List.Basic
import RepoContract.Proofs.Contract.Acceptance
import RepoContract.Proofs.Json.Members
import RepoContract.Proofs.Json.ReadBack
import RepoContract.Starter

namespace RepoContract

set_option autoImplicit false

open Json (Value Output)

namespace Contract

/-- A contract whose texts the schema lets through. -/
structure Admissible (contract : Contract) : Prop where
  version : ∃ c ∈ contract.version.toList, Text.isBlank c = false
  languages : contract.languages ≠ []
  allowedPatterns : ∀ id ∈ contract.allowedPatterns, id ∈ patternIds
  forbiddenPatterns : ∀ id ∈ contract.forbiddenPatterns, id ∈ patternIds
  roles : ∀ role ∈ contract.roles, role ∈ canonicalRoles

variable {contract : Contract} {members : List (String × Value)}

/-! ## Admissible contracts and conforming documents -/

theorem spelling_mem {α : Type} [Spelled α] [Spelled.Lawful α] (member : α) :
    Spelled.spelling member ∈ Spelled.spellings α :=
  List.mem_map_of_mem (List.mem_of_find?_eq_some (Spelled.Lawful.ofSpelling?_spelling member))

theorem MemberAs.absentOr {α : Type} [Spelled α] [Spelled.Lawful α] {member : Option α}
    {value : Option Value} (entry : MemberAs member value) :
    Schema.AbsentOr (Schema.Among (Spelled.spellings α)) value := by
  unfold MemberAs at entry
  cases member with
  | none => exact .inl entry
  | some member => exact .inr ⟨_, entry, _, spelling_mem member, rfl⟩

theorem ListedAs.absentOr {texts valid : List String} {value : Option Value}
    (entry : ListedAs texts value) (known : ∀ text ∈ texts, text ∈ valid) :
    Schema.AbsentOr (Schema.ListAmong valid) value := by
  rcases entry with ⟨absent, -⟩ | there
  · exact .inl absent
  · exact .inr ⟨_, there, texts, rfl, known⟩

/-- The texts of an array are told by the array. -/
theorem texts_injective {first second : List String}
    (same : Value.array (first.map .text) = .array (second.map .text)) : first = second := by
  have items : first.map Value.text = second.map Value.text := by
    injection same
  exact List.map_injective_iff.2 (fun _ _ => Value.text.inj) items

theorem ListedAs.known {texts valid : List String} {value : Option Value}
    (entry : ListedAs texts value) (holds : Schema.AbsentOr (Schema.ListAmong valid) value) :
    ∀ text ∈ texts, text ∈ valid := by
  rcases entry with ⟨-, rfl⟩ | rfl
  · simp
  · rcases holds with absent | ⟨_, there, others, rfl, known⟩
    · contradiction
    · rwa [texts_injective (Option.some.inj there)]

/-- A document that describes an admissible contract conforms. -/
theorem Describes.conforming (describes : contract.Describes members)
    (admissible : contract.Admissible) : Schema.Conforming members where
  version := ⟨contract.version, describes.version, admissible.version⟩
  languages := ⟨contract.languages, describes.languages, admissible.languages⟩
  mode := ⟨_, describes.mode, _, spelling_mem contract.mode, rfl⟩
  modulePattern := describes.modulePattern.absentOr
  stateOwnership := describes.stateOwnership.absentOr
  sideEffects := describes.sideEffects.absentOr
  namingSchema := describes.namingSchema.absentOr
  allowedPatterns := describes.allowedPatterns.absentOr admissible.allowedPatterns
  forbiddenPatterns := describes.forbiddenPatterns.absentOr admissible.forbiddenPatterns
  roles := describes.roles.absentOr admissible.roles

/-- A contract that a conforming document describes is admissible. -/
theorem Describes.admissible (describes : contract.Describes members)
    (conforming : Schema.Conforming members) : contract.Admissible where
  version := by
    obtain ⟨version, there, visible⟩ := conforming.version
    have same := describes.version.symm.trans there
    simp only [Option.some.injEq, Value.text.injEq] at same
    rwa [same]
  languages := by
    obtain ⟨languages, there, named⟩ := conforming.languages
    have same := describes.languages.symm.trans there
    rwa [texts_injective (Option.some.inj same)]
  allowedPatterns := describes.allowedPatterns.known conforming.allowedPatterns
  forbiddenPatterns := describes.forbiddenPatterns.known conforming.forbiddenPatterns
  roles := describes.roles.known conforming.roles

/-! ## The document of a contract -/

theorem toValue_textsOutput (texts : List String) :
    (textsOutput texts).toValue = .array (texts.map .text) := by
  rw [textsOutput, Output.toValue, Output.toValues_eq_map, List.map_map]
  rfl

/-- The members of a document with the values that reading them gives. -/
def valuesOf (members : List (String × Output)) : List (String × Value) :=
  members.map fun (key, value) => (key, value.toValue)

theorem lookup?_valuesOf_append (key : String) (first second : List (String × Output)) :
    Value.lookup? key (valuesOf (first ++ second)) =
      (Value.lookup? key (valuesOf first)).or (Value.lookup? key (valuesOf second)) := by
  rw [valuesOf, List.map_append, Value.lookup?_append]
  rfl

theorem lookup?_optionalMember {α : Type} [Spelled α] (key field : String) (member : Option α) :
    Value.lookup? key (valuesOf (optionalMember field member).reverse) =
      if key = field then member.map fun member => .text (Spelled.spelling member) else none := by
  cases member with
  | none => simp [optionalMember, valuesOf, Value.lookup?]
  | some member =>
      simp [optionalMember, valuesOf, Value.lookup?_cons, Output.toValue]
      rfl

theorem lookup?_listMember (key field : String) (texts : List String) :
    Value.lookup? key (valuesOf (listMember field texts).reverse) =
      if key = field ∧ texts ≠ [] then some (.array (texts.map .text)) else none := by
  cases texts with
  | nil => simp [listMember, valuesOf, Value.lookup?]
  | cons text texts =>
      simp [listMember, valuesOf, Value.lookup?_cons, toValue_textsOutput]
      rfl

theorem listedAs_of_ne_nil (texts : List String) :
    ListedAs texts (if texts ≠ [] then some (.array (texts.map .text)) else none) := by
  by_cases empty : texts = []
  · exact .inl ⟨if_neg (not_not_intro empty), empty⟩
  · exact .inr (if_pos empty)

/-- **What is written of a contract describes it.** -/
theorem describes_toOutput (contract : Contract) :
    ∃ members, contract.toOutput.toValue = .object members ∧ contract.Describes members := by
  obtain ⟨members, isObject, holds⟩ := Output.toValue_record _
  refine ⟨members, isObject, ?_⟩
  -- the keys differ, so in the members from last to first each is found in its own place
  change ∀ key, _ = Value.lookup? key (valuesOf _) at holds
  simp only [List.reverse_append, lookup?_valuesOf_append, lookup?_optionalMember,
    lookup?_listMember] at holds
  constructor
  case allowedPatterns | forbiddenPatterns | roles =>
    rw [holds]
    simpa [valuesOf, Value.lookup?_cons, Value.lookup?_nil] using listedAs_of_ne_nil _
  all_goals
    simp [MemberAs, holds, valuesOf, Value.lookup?_cons, Value.lookup?_nil, Output.toValue,
      toValue_textsOutput]

/-! ## The text of a contract -/

theorem readable_textsOutput (depth : Nat) (texts : List String) :
    (textsOutput texts).Readable (depth + 1) := by
  rw [textsOutput, Output.Readable, Output.readableItems_iff]
  intro item isItem
  obtain ⟨text, -, rfl⟩ := List.mem_map.1 isItem
  trivial

theorem readable_optionalMember {α : Type} [Spelled α] (depth : Nat) (field : String)
    (member : Option α) : Output.ReadableMembers depth (optionalMember field member) := by
  cases member with
  | none => trivial
  | some member => exact ⟨trivial, trivial⟩

theorem readable_listMember (depth : Nat) (field : String) (texts : List String) :
    Output.ReadableMembers (depth + 1) (listMember field texts) := by
  unfold listMember
  split
  · trivial
  · exact ⟨readable_textsOutput depth texts, trivial⟩

/-- What is written of a contract opens two brackets at once. -/
theorem readable_toOutput (depth : Nat) (contract : Contract) :
    contract.toOutput.Readable (depth + 2) := by
  simp only [toOutput, Output.Readable, Output.readableMembers_append]
  refine ⟨⟨⟨⟨⟨⟨⟨?_, ?_⟩, ?_⟩, ?_⟩, ?_⟩, ?_⟩, ?_⟩, ?_⟩
  case refine_1 => exact ⟨trivial, readable_textsOutput depth _, trivial, trivial⟩
  case refine_2 | refine_3 | refine_4 | refine_5 => exact readable_optionalMember _ _ _
  all_goals exact readable_listMember _ _ _

/-- The text of a contract, with blanks behind it, is a document that describes the contract. -/
theorem parse_render (contract : Contract) (blanks : List Char)
    (blank : ∀ c ∈ blanks, Json.isSpace c = true) :
    ∃ members, Json.parse (contract.render.toList ++ blanks) = .ok (.object members) ∧
      contract.Describes members := by
  obtain ⟨members, isObject, describes⟩ := describes_toOutput contract
  refine ⟨members, ?_, describes⟩
  rw [← isObject]
  exact Output.parse_render (readable_toOutput _ contract) blanks blank

/-- **An admissible contract that is written loads as itself.** -/
theorem Admissible.loads_render (admissible : contract.Admissible) (path : Path)
    (blanks : List Char) (blank : ∀ c ∈ blanks, Json.isSpace c = true) :
    (Loaded.ofText path (contract.render.toList ++ blanks)).problems = [] ∧
      (Loaded.ofText path (contract.render.toList ++ blanks)).contract = some contract := by
  obtain ⟨members, parsed, describes⟩ := parse_render contract blanks blank
  rw [Loaded.ofText_of_describes path parsed (describes.conforming admissible) describes]
  exact ⟨rfl, rfl⟩

/-- A contract that says no more than it has to loads from its text. -/
theorem loads_minimal {languages : List String} (named : languages ≠ []) (mode : Mode)
    (path : Path) : (Loaded.ofText path (minimal languages mode).render.toList).contract =
      some (minimal languages mode) := by
  have isVisible : '1' ∈ (minimal languages mode).version.toList ∧ Text.isBlank '1' = false :=
    (by decide : '1' ∈ "1.0".toList ∧ Text.isBlank '1' = false)
  have admissible : (minimal languages mode).Admissible :=
    ⟨⟨'1', isVisible⟩, named, List.forall_mem_nil _, List.forall_mem_nil _, List.forall_mem_nil _⟩
  have written := (admissible.loads_render path [] (List.forall_mem_nil _)).2
  rwa [List.append_nil] at written

/-- The contract of a text that loads is admissible. -/
theorem admissible_of_ofText {path : Path} {text : List Char}
    (loads : (Loaded.ofText path text).contract = some contract) : contract.Admissible := by
  cases parsed : Json.parse text with
  | error fault => simp [Loaded.ofText_of_error path parsed] at loads
  | ok document =>
      by_cases conforms : Schema.Conforms document
      · obtain ⟨members, rfl, conforming⟩ := conforms
        obtain ⟨other, describes⟩ := exists_describes conforming
        rw [Loaded.ofText_of_describes path parsed conforming describes] at loads
        cases loads
        exact describes.admissible conforming
      · obtain ⟨-, loaded⟩ := Loaded.ofText_of_not_conforms path parsed conforms
        simp [loaded] at loads

end Contract

/-- The contract of a starter is admissible, whatever languages it names. -/
theorem Starter.admissible_contract (languages : List String) (mode : Mode) :
    (ofLanguages languages mode).contract.Admissible where
  version := ⟨'1', (by decide : '1' ∈ "1.0".toList), by decide⟩
  languages := by
    cases languages <;> simp [contract, Contract.minimal, ofLanguages]
  allowedPatterns := nofun
  forbiddenPatterns := by
    intro id isForbidden
    rw [List.mem_singleton.1 isForbidden]
    decide
  roles := nofun

namespace Contract

/-- **Writing a contract and loading it back is the identity**, on every admissible contract. Those
of starters are admissible, with the line end that a starter adds, and so is every contract that
was ever loaded. -/
theorem ofText_render :
    (∀ path (contract : Contract), contract.Admissible →
      (Loaded.ofText path contract.render.toList).problems = [] ∧
        (Loaded.ofText path contract.render.toList).contract = some contract) ∧
    (∀ path languages mode,
      let starter := Starter.ofLanguages languages mode
      (Loaded.ofText path starter.contractText.toList).problems = [] ∧
        (Loaded.ofText path starter.contractText.toList).contract = some starter.contract) ∧
    (∀ path text contract, (Loaded.ofText path text).contract = some contract →
      ∀ other, (Loaded.ofText other contract.render.toList).problems = [] ∧
        (Loaded.ofText other contract.render.toList).contract = some contract) := by
  have written (path : Path) (contract : Contract) (admissible : contract.Admissible) :
      (Loaded.ofText path contract.render.toList).problems = [] ∧
        (Loaded.ofText path contract.render.toList).contract = some contract := by
    have loaded := admissible.loads_render path [] (List.forall_mem_nil _)
    rwa [List.append_nil] at loaded
  refine ⟨written, ?_, ?_⟩
  · intro path languages mode
    -- the line end of a starter is a blank behind the document
    have blank : ∀ c ∈ ['\n'], Json.isSpace c = true := by
      intro c isEnd
      rw [List.mem_singleton.1 isEnd]
      decide
    have loaded := (Starter.admissible_contract languages mode).loads_render path _ blank
    simpa [Starter.contractText] using loaded
  · intro path text contract loads other
    exact written other contract (admissible_of_ofText loads)

/-- A contract whose languages hold quotes, escapes, control characters and a wide letter. -/
def oddlyNamed : Contract :=
  { version := " 2\n", languages := ["", "c\"\\", "\x01\t\x7f", "λ😀"], mode := .lite,
    sideEffects := some .explicit, forbiddenPatterns := ["bare-except", "bare-except"],
    roles := ["ui"] }

/-- The oddly named contract loads as itself from its file, and from what is written of it then. -/
theorem ofText_render_oddlyNamed :
    oddlyNamed.Admissible ∧
    (Loaded.ofText (Path.ofString contractFile) oddlyNamed.render.toList).problems = [] ∧
    (Loaded.ofText (Path.ofString contractFile) oddlyNamed.render.toList).contract =
      some oddlyNamed ∧
    (Loaded.ofText (Path.ofString "copy") oddlyNamed.render.toList).contract =
      some oddlyNamed := by
  have admissible : oddlyNamed.Admissible := by
    refine ⟨⟨'2', ?_⟩, ?_, ?_, ?_, ?_⟩ <;> decide
  obtain ⟨quiet, loads⟩ := ofText_render.1 (Path.ofString contractFile) oddlyNamed admissible
  exact ⟨admissible, quiet, loads, (ofText_render.2.2 _ _ _ loads (Path.ofString "copy")).2⟩

end Contract

end RepoContract
