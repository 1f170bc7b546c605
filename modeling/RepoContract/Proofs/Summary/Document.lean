/-
# RepoContract.Proofs.Summary.Document: the document of a report loses nothing

The report's document is read here by a reader of its own, which looks a member up by its key and
asks nothing about the order or the layout of the text. It gives back the summary that was
written, whatever characters its texts hold (`Summary.renderDocument_faithful`). Between the two
stand the reader of documents and its round trip (`Json.Output.parse_render`).

The one thing a document has no place for is a path that is not text. A path is told from its
text (`Path.text?_eq_some_iff`), so leaving out such paths leaves nothing else to lose.
-/
import RepoContract.Proofs.Json.Members
import RepoContract.Proofs.Json.ReadBack
import RepoContract.Proofs.Text.Utf8
import RepoContract.Summary.Document

namespace RepoContract

set_option autoImplicit false

open Json (Value Output)

/-! ## Reading the members of a document -/

namespace Json.Value

def member? (key : String) : Value → Option Value
  | .object members => lookup? key members
  | _ => none

def text? : Value → Option String
  | .text value => some value
  | _ => none

def count? : Value → Option Nat
  | .number (.integer value) => value.toNat?
  | _ => none

def items? : Value → Option (List Value)
  | .array items => some items
  | _ => none

variable {α : Type}

/-- Read a member that has to be there. -/
def required? (key : String) (read : Value → Option α) (document : Value) : Option α :=
  (document.member? key).bind read

/-- Read a member that may be left out; one that is there has to be readable. -/
def optional? (key : String) (read : Value → Option α) (document : Value) : Option (Option α) :=
  match document.member? key with
  | none => some none
  | some value => (read value).map some

/-- Read every item of a member that is a list. -/
def listed? (key : String) (read : Value → Option α) (document : Value) : Option (List α) :=
  (document.required? key items?).bind (·.mapM read)

end Json.Value

/-- The violation that a value describes. -/
def Violation.ofValue? (document : Value) : Option Violation := do
  let file ← document.optional? "file" Value.text?
  let line ← document.optional? "line" Value.count?
  let message ← document.required? "message" Value.text?
  return { file := file.map Path.ofString, line, message }

def Severity.ofText? : String → Option Severity
  | "error" => some .error
  | "warn" => some .warn
  | _ => none

/-- The record that a value describes. -/
def Record.ofValue? (document : Value) : Option Record := do
  let id ← document.required? "id" Value.text?
  let name ← document.required? "name" Value.text?
  let severity ← (document.required? "severity" Value.text?).bind Severity.ofText?
  let violations ← document.listed? "violations" Violation.ofValue?
  return { id, name, severity, violations }

/-- The summary that a document describes. -/
def Summary.ofValue? (document : Value) : Option Summary := do
  let counts ← document.member? "summary"
  let passed ← counts.required? "passed" Value.count?
  let failed ← counts.required? "failed" Value.count?
  let warnings ← counts.required? "warnings" Value.count?
  let records ← document.listed? "results" Record.ofValue?
  return { passed, failed, warnings, records }

/-! ## Lists that are written item by item -/

section Lists

variable {α β γ : Type} {write : α → Option β}

theorem mapM_eq_none_iff {items : List α} :
    items.mapM write = none ↔ ∃ item ∈ items, write item = none := by
  induction items with
  | nil => simp
  | cons item items ih =>
      simp only [List.mapM_cons, List.mem_cons, exists_eq_or_imp, ← ih]
      cases write item <;> cases items.mapM write <;> simp

theorem exists_of_mapM {items : List α} {outputs : List β}
    (written : items.mapM write = some outputs) :
    ∀ output ∈ outputs, ∃ item ∈ items, write item = some output := by
  induction items generalizing outputs with
  | nil => cases written; nofun
  | cons item items ih =>
      rw [List.mapM_cons] at written
      obtain ⟨first, isFirst, written⟩ := Option.bind_eq_some_iff.1 written
      obtain ⟨rest, areRest, written⟩ := Option.bind_eq_some_iff.1 written
      cases written
      intro output isOutput
      rcases List.mem_cons.1 isOutput with rfl | isLater
      · exact ⟨item, List.mem_cons_self, isFirst⟩
      · obtain ⟨source, isSource, isWritten⟩ := ih areRest output isLater
        exact ⟨source, List.mem_cons_of_mem _ isSource, isWritten⟩

/-- What is read back item by item is read back as a list. -/
theorem mapM_readBack {value : β → γ} {read : γ → Option α} {items : List α} {outputs : List β}
    (inverse : ∀ item ∈ items, ∀ output, write item = some output →
      read (value output) = some item)
    (written : items.mapM write = some outputs) : (outputs.map value).mapM read = some items := by
  induction items generalizing outputs with
  | nil => cases written; rfl
  | cons item items ih =>
      rw [List.mapM_cons] at written
      obtain ⟨first, isFirst, written⟩ := Option.bind_eq_some_iff.1 written
      obtain ⟨rest, areRest, written⟩ := Option.bind_eq_some_iff.1 written
      cases written
      rw [List.map_cons, List.mapM_cons, inverse item List.mem_cons_self first isFirst,
        ih (fun later isLater => inverse later (List.mem_cons_of_mem _ isLater)) areRest]
      rfl

end Lists

/-! ## Paths that are text -/

/-- Whether the bytes of a path are those of some text. -/
def Path.IsText (path : Path) : Prop :=
  ∃ text : String, path = Path.ofString text

theorem Path.text?_eq_some_iff {path : Path} {text : String} :
    path.text? = some text ↔ path = Path.ofString text := by
  constructor
  · intro isText
    obtain ⟨characters, isRead, rfl⟩ := Option.map_eq_some_iff.1 isText
    rw [Path.ofString, String.toList_ofList, Text.Utf8.encode_of_decode? isRead]
  · rintro rfl
    rw [Path.text?, Path.ofString, Text.Utf8.decode?_encode, Option.map_some, String.ofList_toList]

theorem Path.text?_eq_none_iff {path : Path} : path.text? = none ↔ ¬path.IsText := by
  rw [Option.eq_none_iff_forall_ne_some]
  simp only [ne_eq, text?_eq_some_iff, IsText, not_exists]

/-! ## A violation, a record and a summary -/

/-- A member of a record that was written, by its key. -/
theorem member?_toValue (key : String) (members : List (String × Output)) :
    (Output.record members).toValue.member? key =
      Value.lookup? key (members.reverse.map fun (key, value) => (key, value.toValue)) := by
  obtain ⟨sorted, isObject, holds⟩ := Output.toValue_record members
  rw [isObject]
  exact holds key

theorem text?_toValue (text : String) : (Output.text text).toValue.text? = some text :=
  rfl

theorem count?_toValue (count : Nat) : (Output.count count).toValue.count? = some count :=
  rfl

/-- What a list that was written holds is read item by item. -/
theorem listed?_of_member {α : Type} {key : String} {read : Value → Option α} {document : Value}
    {outputs : List Output} (isMember : document.member? key = some (Output.list outputs).toValue) :
    document.listed? key read = (outputs.map Output.toValue).mapM read := by
  rw [Value.listed?, Value.required?, isMember, Output.toValue, Output.toValues_eq_map]
  rfl

namespace Violation

/-- Whether the line number of a violation fits a machine word. -/
def InWords (violation : Violation) : Prop :=
  ∀ line ∈ violation.line, line < UInt64.size

theorem toOutput?_eq_none_iff {violation : Violation} :
    violation.toOutput? = none ↔ ∃ file ∈ violation.file, ¬file.IsText := by
  rcases violation with ⟨_ | file, line, message⟩
  · simp [toOutput?, fileMember?]
  · simp [toOutput?, fileMember?, Path.text?_eq_none_iff]

theorem ofValue?_toValue {violation : Violation} {output : Output}
    (written : violation.toOutput? = some output) : ofValue? output.toValue = some violation := by
  obtain ⟨file, isFile, rfl⟩ := Option.map_eq_some_iff.1 written
  rcases violation with ⟨path, line, message⟩
  cases path with
  | none =>
      cases isFile
      simp only [ofValue?, Value.optional?, Value.required?, member?_toValue]
      cases line <;>
        simp [lineMember, Value.lookup?_cons, Value.lookup?_nil, text?_toValue, count?_toValue]
  | some path =>
      obtain ⟨text, isText, rfl⟩ := Option.map_eq_some_iff.1 isFile
      rw [Path.text?_eq_some_iff.1 isText]
      simp only [ofValue?, Value.optional?, Value.required?, member?_toValue]
      cases line <;>
        simp [lineMember, Value.lookup?_cons, Value.lookup?_nil, text?_toValue, count?_toValue]

theorem readable_toOutput? {violation : Violation} {output : Output} (inWords : violation.InWords)
    (depth : Nat) (written : violation.toOutput? = some output) : output.Readable (depth + 1) := by
  obtain ⟨file, isFile, rfl⟩ := Option.map_eq_some_iff.1 written
  rcases violation with ⟨path, line, message⟩
  rw [Output.Readable, Output.readableMembers_append, Output.readableMembers_append]
  refine ⟨⟨?_, ?_⟩, trivial, trivial⟩
  · cases path with
    | none => cases isFile; trivial
    | some path =>
        obtain ⟨text, -, rfl⟩ := Option.map_eq_some_iff.1 isFile
        exact ⟨trivial, trivial⟩
  · cases line with
    | none => trivial
    | some line => exact ⟨inWords line rfl, trivial⟩

end Violation

theorem Severity.ofText?_text (severity : Severity) : ofText? severity.text = some severity := by
  cases severity <;> decide

namespace Record

theorem toOutput?_eq_none_iff {record : Record} :
    record.toOutput? = none ↔
      ∃ violation ∈ record.violations, ∃ file ∈ violation.file, ¬file.IsText := by
  simp only [toOutput?, Option.map_eq_none_iff, mapM_eq_none_iff,
    Violation.toOutput?_eq_none_iff]

theorem ofValue?_toValue {record : Record} {output : Output}
    (written : record.toOutput? = some output) : ofValue? output.toValue = some record := by
  obtain ⟨violations, areViolations, rfl⟩ := Option.map_eq_some_iff.1 written
  have readBack : (violations.map Output.toValue).mapM Violation.ofValue? =
      some record.violations :=
    mapM_readBack (fun _ _ _ isWritten => Violation.ofValue?_toValue isWritten) areViolations
  have isListed (id name severity list : Output) :
      (Output.record [("id", id), ("name", name), ("severity", severity),
        ("violations", list)]).toValue.member? "violations" = some list.toValue := by
    simp [member?_toValue, Value.lookup?_cons]
  simp only [ofValue?, listed?_of_member (isListed _ _ _ _), readBack, Value.required?,
    member?_toValue]
  simp [Value.lookup?_cons, text?_toValue, Severity.ofText?_text]

theorem readable_toOutput? {record : Record} {output : Output}
    (inWords : ∀ violation ∈ record.violations, violation.InWords) (depth : Nat)
    (written : record.toOutput? = some output) : output.Readable (depth + 3) := by
  obtain ⟨violations, areViolations, rfl⟩ := Option.map_eq_some_iff.1 written
  refine ⟨trivial, trivial, trivial, Output.readableItems_iff.2 fun item isItem => ?_, trivial⟩
  obtain ⟨violation, isViolation, isWritten⟩ := exists_of_mapM areViolations item isItem
  exact Violation.readable_toOutput? (inWords violation isViolation) depth isWritten

end Record

namespace Summary

/-- Whether the counts and line numbers of a summary fit machine words. -/
structure InWords (summary : Summary) : Prop where
  passed : summary.passed < UInt64.size
  failed : summary.failed < UInt64.size
  warnings : summary.warnings < UInt64.size
  lines : ∀ record ∈ summary.records, ∀ violation ∈ record.violations, violation.InWords

/-- Whether some violation is in a file whose path is not text. -/
def NamesBytes (summary : Summary) : Prop :=
  ∃ record ∈ summary.records, ∃ violation ∈ record.violations, ∃ file ∈ violation.file,
    ¬file.IsText

theorem toOutput?_eq_none_iff {summary : Summary} :
    summary.toOutput? = none ↔ summary.NamesBytes := by
  simp only [toOutput?, Option.map_eq_none_iff, mapM_eq_none_iff, Record.toOutput?_eq_none_iff,
    NamesBytes]

instance (summary : Summary) : Decidable summary.NamesBytes :=
  decidable_of_iff (summary.toOutput?.isNone = true)
    (by rw [Option.isNone_iff_eq_none, toOutput?_eq_none_iff])

theorem renderDocument_eq_error_iff {summary : Summary} {fault : Fault} :
    summary.renderDocument = .error fault ↔
      summary.NamesBytes ∧ fault = .document .pathNotText := by
  rw [← toOutput?_eq_none_iff, renderDocument]
  cases summary.toOutput? <;> simp [eq_comm]

theorem renderDocument_eq_ok_iff {summary : Summary} {text : String} :
    summary.renderDocument = .ok text ↔
      ∃ output, summary.toOutput? = some output ∧ output.render = text := by
  rw [renderDocument]
  cases summary.toOutput? <;> simp

theorem ofValue?_toValue {summary : Summary} {output : Output}
    (written : summary.toOutput? = some output) : ofValue? output.toValue = some summary := by
  obtain ⟨records, areRecords, rfl⟩ := Option.map_eq_some_iff.1 written
  have readBack : (records.map Output.toValue).mapM Record.ofValue? = some summary.records :=
    mapM_readBack (fun _ _ _ isWritten => Record.ofValue?_toValue isWritten) areRecords
  have isCounts (counts results : Output) :
      (Output.record [("summary", counts), ("results", results)]).toValue.member? "summary" =
        some counts.toValue := by
    simp [member?_toValue, Value.lookup?_cons]
  have isResults (counts results : Output) :
      (Output.record [("summary", counts), ("results", results)]).toValue.member? "results" =
        some results.toValue := by
    simp [member?_toValue, Value.lookup?_cons]
  simp only [ofValue?, isCounts, listed?_of_member (isResults _ _), readBack, Option.bind_eq_bind,
    Option.bind_some, Value.required?, member?_toValue]
  simp [Value.lookup?_cons, count?_toValue]

theorem readable_toOutput? {summary : Summary} {output : Output} (inWords : summary.InWords)
    (depth : Nat) (written : summary.toOutput? = some output) : output.Readable (depth + 5) := by
  obtain ⟨records, areRecords, rfl⟩ := Option.map_eq_some_iff.1 written
  refine ⟨⟨inWords.passed, inWords.failed, inWords.warnings, trivial⟩,
    Output.readableItems_iff.2 fun item isItem => ?_, trivial⟩
  obtain ⟨record, isRecord, isWritten⟩ := exists_of_mapM areRecords item isItem
  exact Record.readable_toOutput? (inWords.lines record isRecord) depth isWritten

/-- **The document of a report loses nothing.** It cannot be written exactly when some violation is
in a file whose path is not text. Otherwise it is written, parses, and describes the summary it
was written from; the counts and line numbers have to be machine words, as they are in a report,
since a document has no larger integers. -/
theorem renderDocument_faithful (summary : Summary) :
    ((∃ fault, summary.renderDocument = .error fault) ↔
      ∃ record ∈ summary.records, ∃ violation ∈ record.violations, ∃ file ∈ violation.file,
        ¬file.IsText) ∧
    ((∀ record ∈ summary.records, ∀ violation ∈ record.violations, ∀ file ∈ violation.file,
        file.IsText) →
      summary.InWords →
      ∃ text document, summary.renderDocument = .ok text ∧
        Json.parse text.toList = .ok document ∧ ofValue? document = some summary) := by
  constructor
  · simp only [renderDocument_eq_error_iff, exists_and_left, exists_eq, and_true]
    rfl
  · intro areTexts inWords
    cases written : summary.toOutput? with
    | none =>
        obtain ⟨record, isRecord, violation, isViolation, file, isFile, notText⟩ :=
          toOutput?_eq_none_iff.1 written
        exact absurd (areTexts record isRecord violation isViolation file isFile) notText
    | some output =>
        have readable := readable_toOutput? inWords 122 written
        have parsed := Output.parse_render readable [] (List.forall_mem_nil _)
        rw [List.append_nil] at parsed
        exact ⟨output.render, output.toValue, renderDocument_eq_ok_iff.2 ⟨output, written, rfl⟩,
          parsed, ofValue?_toValue written⟩

/-- Texts with quotes, escapes, control characters and wide letters; a violation with a file and a
line, one with a file, one with a line and one with neither. -/
def oddFindings : Summary where
  passed := 0
  failed := 1
  warnings := UInt64.size - 1
  records := [
    { id := "\"id\\", name := "\x00\n\t", severity := .error, violations := [
      .atLine (Path.ofString "a\"\\\n.js") 0 "λ😀\x7f",
      .inFile (Path.ofString "") "\x08\x0c\r/",
      { line := some (UInt64.size - 1), message := "" },
      .general "\x7b\"file\": null\x7d"] },
    { id := "", name := "", severity := .warn, violations := [] }]

/-- The odd findings come back as they were, and one more violation in a file whose name is no text
keeps them from being written. -/
theorem renderDocument_faithful_oddFindings :
    (∃ text document, oddFindings.renderDocument = .ok text ∧
      Json.parse text.toList = .ok document ∧ ofValue? document = some oddFindings) ∧
    ∃ fault, Summary.renderDocument { oddFindings with
      records := [⟨"id", "name", .warn, [.inFile ⟨[0x61, 0xFF]⟩ "message"]⟩] } = .error fault := by
  have areTexts : ∀ record ∈ oddFindings.records, ∀ violation ∈ record.violations,
      ∀ file ∈ violation.file, file.IsText := by
    simp [oddFindings, Violation.atLine, Violation.inFile, Violation.general, Path.IsText]
  have inWords : oddFindings.InWords := by
    constructor <;> simp [oddFindings, Violation.InWords, Violation.atLine, Violation.inFile,
      Violation.general, UInt64.size]
  have notText : ¬Path.IsText ⟨[0x61, 0xFF]⟩ := Path.text?_eq_none_iff.1 (by decide +kernel)
  exact ⟨(renderDocument_faithful oddFindings).2 areTexts inWords,
    (renderDocument_faithful _).1.2
      ⟨_, List.mem_singleton_self _, _, List.mem_singleton_self _, _, rfl, notText⟩⟩

end Summary

end RepoContract
