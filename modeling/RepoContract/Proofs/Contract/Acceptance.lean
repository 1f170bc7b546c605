/-
# RepoContract.Proofs.Contract.Acceptance: what is accepted is what can be decoded

The schema and the decoder describe contract documents independently of each other. They agree on
every document: what the schema does not complain about is decoded (`ofText_of_conforms`), so the
decoder never has the last word, and a text yields either a contract or problems, never both and
never neither (`ofText_verdict`).
-/
import RepoContract.Contract.Loading
import RepoContract.Proofs.Contract.Decoding
import RepoContract.Proofs.Json.Members
import RepoContract.Proofs.Json.ReadBack

namespace RepoContract.Loaded

set_option autoImplicit false

open Json (Value Output)
open Schema (Conforms Reports demands)

variable {text : List Char} {document : Value}

theorem ofText_of_error (path : Path) {fault : Json.Fault}
    (refused : Json.parse text = .error fault) :
    ofText path text = ⟨path, none, none, [.noDocument fault]⟩ := by
  simp [ofText, refused]

theorem ofText_of_describes (path : Path) {members : List (String × Value)} {contract : Contract}
    (parsed : Json.parse text = .ok (.object members)) (conforming : Schema.Conforming members)
    (describes : contract.Describes members) :
    ofText path text = ⟨path, some (.object members), some contract, []⟩ := by
  have quiet := (Schema.complaints_eq_nil_iff (.object members)).2 ⟨members, rfl, conforming⟩
  simp [ofText, parsed, quiet, describes.ofValue_eq]

/-- A document that conforms is accepted, and describes the contract that it yields. -/
theorem ofText_of_conforms (path : Path) (parsed : Json.parse text = .ok document)
    (conforms : Conforms document) :
    ∃ members contract, document = .object members ∧ contract.Describes members ∧
      ofText path text = ⟨path, some document, some contract, []⟩ := by
  obtain ⟨members, rfl, conforming⟩ := conforms
  obtain ⟨contract, describes⟩ := Contract.exists_describes conforming
  exact ⟨members, contract, rfl, describes, ofText_of_describes path parsed conforming describes⟩

/-- A document that does not conform is refused with its complaints, of which there are some. -/
theorem ofText_of_not_conforms (path : Path) (parsed : Json.parse text = .ok document)
    (breaks : ¬ Conforms document) :
    Schema.complaints document ≠ [] ∧
      ofText path text =
        ⟨path, some document, none, (Schema.complaints document).map .schema⟩ := by
  have complains := mt (Schema.complaints_eq_nil_iff document).1 breaks
  refine ⟨complains, ?_⟩
  cases found : Schema.complaints document with
  | nil => exact absurd found complains
  | cons complaint more => simp [ofText, parsed, found]

/-- **A text yields a contract and no problem, or no contract and some problem.** No problem says
that a document could not be decoded. -/
theorem ofText_verdict (path : Path) (text : List Char) :
    ((∃ contract, (ofText path text).contract = some contract) ∧ (ofText path text).problems = [] ∨
      (ofText path text).contract = none ∧ (ofText path text).problems ≠ []) ∧
    ∀ reason, .undecodable reason ∉ (ofText path text).problems := by
  cases parsed : Json.parse text with
  | error fault => simp [ofText_of_error path parsed]
  | ok document =>
      by_cases conforms : Conforms document
      · obtain ⟨members, contract, -, -, loaded⟩ := ofText_of_conforms path parsed conforms
        simp [loaded]
      · obtain ⟨complains, loaded⟩ := ofText_of_not_conforms path parsed conforms
        simp [loaded, complains]

/-- Nothing is wrong with a text that yields a contract. -/
theorem problems_of_ofText {path : Path} {contract : Contract}
    (loads : (ofText path text).contract = some contract) : (ofText path text).problems = [] := by
  rcases (ofText_verdict path text).1 with ⟨-, quiet⟩ | ⟨fails, -⟩
  · exact quiet
  · rw [fails] at loads
    contradiction

/-- The file of a project yields either a contract or problems, also when it cannot be read. -/
theorem ofProject_verdict (root : Path) (isThere : Bool)
    (content : Except SystemFault (List Char)) :
    (∃ contract, (ofProject root isThere content).contract = some contract) ∧
        (ofProject root isThere content).problems = [] ∨
      (ofProject root isThere content).contract = none ∧
        (ofProject root isThere content).problems ≠ [] := by
  unfold ofProject
  cases isThere with
  | false => exact .inr ⟨rfl, List.cons_ne_nil _ _⟩
  | true =>
      cases content with
      | ok text => exact (ofText_verdict (contractPath root) text).1
      | error cause => exact .inr ⟨rfl, List.cons_ne_nil _ _⟩

/-- **The schema accepts exactly the documents that can be decoded.** A text that is no document
yields one problem. A document yields a contract exactly when it conforms, and then describes it
in every field; otherwise its problems report the broken demands, one for each and in order. -/
theorem ofText_accepts_conforming (path : Path) (text : List Char) :
    (∀ fault, Json.parse text = .error fault →
      (ofText path text).document = none ∧ (ofText path text).contract = none ∧
        (ofText path text).problems = [.noDocument fault]) ∧
    (∀ document, Json.parse text = .ok document →
      (ofText path text).document = some document ∧
      ((ofText path text).contract.isSome = true ↔ Conforms document) ∧
      (∀ contract, (ofText path text).contract = some contract →
        (ofText path text).problems = [] ∧
          ∃ members, document = .object members ∧ contract.Describes members) ∧
      (¬ Conforms document → ∃ complaints,
        (ofText path text).problems = complaints.map .schema ∧
          Reports (demands document) complaints)) ∧
    ((∃ contract, (ofText path text).contract = some contract) ∧ (ofText path text).problems = [] ∨
      (ofText path text).contract = none ∧ (ofText path text).problems ≠ []) ∧
    ∀ reason, .undecodable reason ∉ (ofText path text).problems := by
  refine ⟨?_, ?_, ofText_verdict path text⟩
  · intro fault refused
    rw [ofText_of_error path refused]
    exact ⟨rfl, rfl, rfl⟩
  · intro document parsed
    by_cases conforms : Conforms document
    · obtain ⟨members, contract, isObject, describes, loaded⟩ :=
        ofText_of_conforms path parsed conforms
      rw [loaded]
      refine ⟨rfl, iff_of_true rfl conforms, ?_, fun breaks => absurd conforms breaks⟩
      rintro _ ⟨⟩
      exact ⟨rfl, members, isObject, describes⟩
    · obtain ⟨-, loaded⟩ := ofText_of_not_conforms path parsed conforms
      rw [loaded]
      exact ⟨rfl, iff_of_false Bool.false_ne_true conforms, nofun,
        fun _ => ⟨_, rfl, Schema.complaints_report document⟩⟩

/-- A blank version, a language that is no text, and no mode. -/
def threeFaults : Output :=
  .record [("version", .text " "), ("languages", .list [.text "go", .count 1])]

/-- A document that breaks its demands in three places has problems for them and no contract. -/
theorem ofText_accepts_conforming_threeFaults :
    ∃ members, Json.parse threeFaults.render.toList = .ok (.object members) ∧
      ¬ Conforms (.object members) ∧
      (ofText (Path.ofString contractFile) threeFaults.render.toList).document =
        some (.object members) ∧
      ∃ complaints,
        (ofText (Path.ofString contractFile) threeFaults.render.toList).problems =
          complaints.map .schema ∧ Reports (demands (.object members)) complaints := by
  have readable : threeFaults.Readable (Json.depthLimit - 1) :=
    ⟨trivial, ⟨trivial, (by decide : 1 < UInt64.size), trivial⟩, trivial⟩
  obtain ⟨members, isObject, holds⟩ := Output.toValue_record
    [("version", .text " "), ("languages", .list [.text "go", .count 1])]
  have parsed : Json.parse threeFaults.render.toList = .ok (.object members) := by
    have read := Output.parse_render readable [] (List.forall_mem_nil _)
    rwa [List.append_nil, threeFaults, isObject] at read
  have breaks : ¬ Conforms (.object members) := by
    rintro ⟨_, ⟨⟩, conforming⟩
    obtain ⟨mode, there, -⟩ := conforming.mode
    rw [holds] at there
    simp [Value.lookup?_cons, Value.lookup?_nil] at there
  obtain ⟨isDocument, -, -, reports⟩ := (ofText_accepts_conforming (Path.ofString contractFile)
    threeFaults.render.toList).2.1 _ parsed
  exact ⟨members, parsed, breaks, isDocument, reports breaks⟩

end RepoContract.Loaded
