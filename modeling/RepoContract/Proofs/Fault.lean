/-
# RepoContract.Proofs.Fault: what a message names

A report shows faults, problems with a contract and complaints about a document by their messages
alone. So a message has to say what it is about: the rule and its text, the glob, the path, the
field with the index of an item, the values that are valid, and the cause underneath. These are the
parts of each, and every part stands in the message as it is (`Fault.message_names`,
`LoadProblem.message_names`).
-/
import RepoContract.Contract.Loading
import RepoContract.Fault

namespace RepoContract

set_option autoImplicit false

/-- A text stands in a message. -/
def Names (message part : String) : Prop :=
  part.toList <:+: message.toList

namespace Names

variable {message part : String}

theorem refl (text : String) : Names text text :=
  List.infix_rfl

/-- What stands in a message stands in one that goes on. -/
theorem front (names : Names message part) (rest : String) : Names (message ++ rest) part := by
  rw [Names, String.toList_append]
  exact names.trans (List.prefix_append _ _).isInfix

/-- What stands in a message stands in one that starts earlier. -/
theorem back (names : Names message part) (first : String) : Names (first ++ message) part := by
  rw [Names, String.toList_append]
  exact names.trans (List.suffix_append _ _).isInfix

theorem both {other : String} (first : Names message part) (second : Names message other) :
    ∀ text ∈ [part, other], Names message text :=
  List.forall_mem_cons.2 ⟨first, List.forall_mem_singleton.2 second⟩

/-- Texts that are listed stand in the list. -/
theorem intercalate {texts : List String} (isText : part ∈ texts) (separator : String) :
    Names (separator.intercalate texts) part := by
  obtain ⟨index, isThere⟩ := List.getElem?_of_mem isText
  have isItem : ((texts.map String.toList).intersperse separator.toList)[2 * index]? =
      some part.toList := by
    rw [List.getElem?_intersperse_two_mul, List.getElem?_map, isThere]
    rfl
  rw [Names, String.toList_intercalate]
  exact List.infix_of_mem_flatten (List.mem_of_getElem? isItem)

end Names

/-! ## Problems with a contract -/

/-- What a complaint is about: a field or an item of it, what stands there and what may. -/
def Schema.Complaint.parts : Schema.Complaint → List String
  | .notObject kind => [kind]
  | .missing field => [field]
  | .blank field => [field]
  | .noLanguage field => [field]
  | .notText field kind => [field, kind]
  | .notList field kind => [field, kind]
  | .itemNotText field index kind => [field ++ "[" ++ toString index ++ "]", kind]
  | .unknown field value valid => field :: value :: valid
  | .unknownItem field index value valid =>
    (field ++ "[" ++ toString index ++ "]") :: value :: valid

theorem Schema.Complaint.message_itemNotText (field : String) (index : Nat) (kind : String) :
    (itemNotText field index kind).message =
      field ++ "[" ++ toString index ++ "]" ++ " must be a string, got " ++ kind := by
  change field ++ "[" ++ toString index ++ "] must be a string, got " ++ kind = _
  have cut : "] must be a string, got " = "]" ++ " must be a string, got " := by decide +kernel
  rw [cut]
  simp only [String.append_assoc]

theorem Schema.Complaint.message_unknownItem (field : String) (index : Nat) (value : String)
    (valid : List String) :
    (unknownItem field index value valid).message =
      field ++ "[" ++ toString index ++ "]" ++ " has invalid value '" ++ value ++
        "'. Valid values: " ++ ", ".intercalate valid := by
  change field ++ "[" ++ toString index ++ "] has invalid value '" ++ value ++
    "'. Valid values: " ++ ", ".intercalate valid = _
  have cut : "] has invalid value '" = "]" ++ " has invalid value '" := by decide +kernel
  rw [cut]
  simp only [String.append_assoc]

/-- **A complaint names its field and its values.** -/
theorem Schema.Complaint.message_names (complaint : Complaint) :
    ∀ part ∈ complaint.parts, Names complaint.message part := by
  have quoted (field rest : String) : Names ("'" ++ field ++ rest) field :=
    ((Names.refl field).back "'").front rest
  cases complaint with
  | notObject kind => exact List.forall_mem_singleton.2 ((Names.refl kind).back _)
  | missing field => exact List.forall_mem_singleton.2 (((Names.refl field).back _).front _)
  | blank field | noLanguage field => exact List.forall_mem_singleton.2 (quoted field _)
  | notText field kind | notList field kind =>
      exact Names.both ((quoted field _).front kind) ((Names.refl kind).back _)
  | itemNotText field index kind =>
      rw [message_itemNotText]
      exact Names.both (((Names.refl _).front _).front kind) ((Names.refl kind).back _)
  | unknown field value valid =>
      refine List.forall_mem_cons.2 ⟨?_, List.forall_mem_cons.2 ⟨?_, fun text isValid => ?_⟩⟩
      · exact (((quoted field _).front value).front _).front _
      · exact (((Names.refl value).back _).front _).front _
      · exact (Names.intercalate isValid ", ").back _
  | unknownItem field index value valid =>
      rw [message_unknownItem]
      refine List.forall_mem_cons.2 ⟨?_, List.forall_mem_cons.2 ⟨?_, fun text isValid => ?_⟩⟩
      · exact ((((Names.refl _).front _).front value).front _).front _
      · exact (((Names.refl value).back _).front _).front _
      · exact (Names.intercalate isValid ", ").back _

/-- What a problem with a contract is about: the document, its path, and the cause. -/
def LoadProblem.parts : LoadProblem → List String
  | .missing path => [path.display]
  | .unreadable path cause => [path.display, cause.message]
  | .noDocument fault => [contractFile, fault.message]
  | .schema complaint => complaint.parts
  | .undecodable reason => [contractFile, reason.message]

/-- **A problem with a contract names the document and the cause.** -/
theorem LoadProblem.message_names (problem : LoadProblem) :
    ∀ part ∈ problem.parts, Names problem.message part := by
  cases problem with
  | missing path => exact List.forall_mem_singleton.2 ((Names.refl _).back _)
  | unreadable path cause =>
      exact Names.both
        ((((Names.refl _).back _).front _).front _) ((Names.refl _).back _)
  | noDocument fault =>
      exact Names.both (((Names.refl _).front _).front _) ((Names.refl _).back _)
  | schema complaint => exact complaint.message_names
  | undecodable reason =>
      exact Names.both (((Names.refl _).front _).front _) ((Names.refl _).back _)

/-! ## Faults -/

/-- What a fault is about: the rule, the path or the glob, and the cause. -/
def Fault.parts : Fault → List String
  | .contract text => [text]
  | .unreadable path cause => [path.display, cause.message]
  | .unwritable path cause => [path.display, cause.message]
  | .badGlob pattern cause => [pattern, cause.message]
  | .refusedGlobs cause => [cause.message]
  | .rule name text => [name, text]
  | .system cause => [cause.message]
  | .document cause => [cause.message]
  | .prompt cause => [cause.message]

/-- **A fault names what failed and why.** -/
theorem Fault.message_names (fault : Fault) : ∀ part ∈ fault.parts, Names fault.message part := by
  cases fault with
  | contract text => exact List.forall_mem_singleton.2 ((Names.refl text).back _)
  | unreadable path cause | unwritable path cause =>
      exact Names.both (((Names.refl _).front _).front _) ((Names.refl _).back _)
  | badGlob pattern cause =>
      exact Names.both
        (((((Names.refl _).front _).front _).front _).front _) ((Names.refl _).back _)
  | refusedGlobs cause | system cause | document cause | prompt cause =>
      exact List.forall_mem_singleton.2 ((Names.refl _).back _)
  | rule name text =>
      exact Names.both
        ((((Names.refl _).back _).front _).front _) ((Names.refl _).back _)

end RepoContract
