/-
# RepoContract.Proofs.Contract.Decoding: a document describes the contract it decodes to

The decoder knows nothing of the schema. Between the two stands `Describes`: every field of a
contract is the value of its key, where a key that is not there is no member or the empty list.

* `exists_describes`: a document that conforms describes some contract;
* `Describes.ofValue_eq`: a document that describes a contract decodes to it.

Both rest on the spellings of the closed sets, each of which is read as the member that has it
(`Spelled.Lawful`).
-/
import RepoContract.Contract.Decoding
import RepoContract.Proofs.Contract.Conformance

namespace RepoContract

set_option autoImplicit false

open Json (Value)

/-! ## Spellings -/

/-- A closed set in which every spelling is read as the member that has it. -/
class Spelled.Lawful (α : Type) [Spelled α] : Prop where
  ofSpelling?_spelling (member : α) : Spelled.ofSpelling? (Spelled.spelling member) = some member

instance : Spelled.Lawful Mode where
  ofSpelling?_spelling member := by cases member <;> decide

instance : Spelled.Lawful ModulePattern where
  ofSpelling?_spelling member := by cases member <;> decide

instance : Spelled.Lawful StateOwnership where
  ofSpelling?_spelling member := by cases member <;> decide

instance : Spelled.Lawful SideEffects where
  ofSpelling?_spelling member := by cases member <;> decide

instance : Spelled.Lawful NamingSchema where
  ofSpelling?_spelling member := by cases member <;> decide

namespace Contract

/-! ## What a document says of a contract -/

/-- A member of a closed set under its key, or no key. -/
def MemberAs {α : Type} [Spelled α] (member : Option α) (value : Option Value) : Prop :=
  value = member.map fun member => .text (Spelled.spelling member)

/-- A list of texts under its key; the empty list may also have no key. -/
def ListedAs (texts : List String) (value : Option Value) : Prop :=
  value = none ∧ texts = [] ∨ value = some (.array (texts.map .text))

/-- Every field of a contract is the value of its key. -/
structure Describes (members : List (String × Value)) (contract : Contract) : Prop where
  version : Value.lookup? "version" members = some (.text contract.version)
  languages : Value.lookup? "languages" members = some (.array (contract.languages.map .text))
  mode : Value.lookup? "mode" members = some (.text (Spelled.spelling contract.mode))
  modulePattern : MemberAs contract.modulePattern (Value.lookup? "modulePattern" members)
  stateOwnership : MemberAs contract.stateOwnership (Value.lookup? "stateOwnership" members)
  sideEffects : MemberAs contract.sideEffects (Value.lookup? "sideEffects" members)
  namingSchema : MemberAs contract.namingSchema (Value.lookup? "namingSchema" members)
  allowedPatterns : ListedAs contract.allowedPatterns (Value.lookup? "allowedPatterns" members)
  forbiddenPatterns :
    ListedAs contract.forbiddenPatterns (Value.lookup? "forbiddenPatterns" members)
  roles : ListedAs contract.roles (Value.lookup? "roles" members)

variable {members : List (String × Value)} {field : String}

theorem exists_member {α : Type} [Spelled α] {value : Value}
    (among : Schema.Among (Spelled.spellings α) value) :
    ∃ member : α, value = .text (Spelled.spelling member) := by
  obtain ⟨text, known, rfl⟩ := among
  obtain ⟨member, -, rfl⟩ := List.mem_map.1 known
  exact ⟨member, rfl⟩

theorem exists_memberAs {α : Type} [Spelled α] {value : Option Value}
    (holds : Schema.AbsentOr (Schema.Among (Spelled.spellings α)) value) :
    ∃ member : Option α, MemberAs member value := by
  rcases holds with rfl | ⟨value, rfl, among⟩
  · exact ⟨none, rfl⟩
  · obtain ⟨member, rfl⟩ := exists_member among
    exact ⟨some member, rfl⟩

theorem exists_listedAs {valid : List String} {value : Option Value}
    (holds : Schema.AbsentOr (Schema.ListAmong valid) value) : ∃ texts, ListedAs texts value := by
  rcases holds with rfl | ⟨_, rfl, texts, rfl, -⟩
  · exact ⟨[], .inl ⟨rfl, rfl⟩⟩
  · exact ⟨texts, .inr rfl⟩

/-- A document that conforms describes some contract. -/
theorem exists_describes (conforming : Schema.Conforming members) :
    ∃ contract, Describes members contract := by
  obtain ⟨version, isVersion, -⟩ := conforming.version
  obtain ⟨languages, areLanguages, -⟩ := conforming.languages
  obtain ⟨_, isMode, modeAmong⟩ := conforming.mode
  obtain ⟨mode, rfl⟩ := exists_member (α := Mode) modeAmong
  obtain ⟨modulePattern, isModulePattern⟩ :=
    exists_memberAs (α := ModulePattern) conforming.modulePattern
  obtain ⟨stateOwnership, isStateOwnership⟩ :=
    exists_memberAs (α := StateOwnership) conforming.stateOwnership
  obtain ⟨sideEffects, areSideEffects⟩ :=
    exists_memberAs (α := SideEffects) conforming.sideEffects
  obtain ⟨namingSchema, isNamingSchema⟩ :=
    exists_memberAs (α := NamingSchema) conforming.namingSchema
  obtain ⟨allowedPatterns, areAllowed⟩ := exists_listedAs conforming.allowedPatterns
  obtain ⟨forbiddenPatterns, areForbidden⟩ := exists_listedAs conforming.forbiddenPatterns
  obtain ⟨roles, areRoles⟩ := exists_listedAs conforming.roles
  exact ⟨⟨version, languages, mode, modulePattern, stateOwnership, sideEffects, namingSchema,
    allowedPatterns, forbiddenPatterns, roles⟩, isVersion, areLanguages, isMode, isModulePattern,
    isStateOwnership, areSideEffects, isNamingSchema, areAllowed, areForbidden, areRoles⟩

/-! ## Decoding what a document says -/

theorem textsOf?_texts (texts : List String) :
    textsOf? (.array (texts.map .text)) = some texts := by
  rw [textsOf?, List.mapM_map]
  induction texts with
  | nil => rfl
  | cons text rest ih =>
      rw [List.mapM_cons, ih]
      rfl

theorem memberOf?_spelling {α : Type} [Spelled α] [Spelled.Lawful α] (member : α) :
    memberOf? (.text (Spelled.spelling member)) = some member :=
  Spelled.Lawful.ofSpelling?_spelling member

theorem required_eq {α : Type} {read : Value → Option α} {value : Value} {result : α}
    (there : Value.lookup? field members = some value) (reads : read value = some result) :
    required read members field = .ok result := by
  simp [required, there, reads]

theorem MemberAs.optional_eq {α : Type} [Spelled α] [Spelled.Lawful α] {member : Option α}
    (entry : MemberAs member (Value.lookup? field members)) :
    optional memberOf? members field = .ok member := by
  unfold MemberAs at entry
  cases member with
  | none => simp [optional, entry]
  | some member => simp [optional, entry, memberOf?_spelling]

theorem ListedAs.listed_eq {texts : List String}
    (entry : ListedAs texts (Value.lookup? field members)) : listed members field = .ok texts := by
  rcases entry with ⟨absent, rfl⟩ | there
  · simp [listed, absent]
  · simp [listed, there, textsOf?_texts]

/-- **A document that describes a contract decodes to it.** -/
theorem Describes.ofValue_eq {contract : Contract} (describes : Describes members contract) :
    ofValue (.object members) = .ok contract := by
  have version : required textOf? members "version" = .ok contract.version :=
    required_eq describes.version rfl
  rw [ofValue, version, required_eq describes.languages (textsOf?_texts _),
    required_eq describes.mode (memberOf?_spelling _), describes.modulePattern.optional_eq,
    describes.stateOwnership.optional_eq, describes.sideEffects.optional_eq,
    describes.namingSchema.optional_eq, describes.allowedPatterns.listed_eq,
    describes.forbiddenPatterns.listed_eq, describes.roles.listed_eq]
  rfl

end Contract

end RepoContract
