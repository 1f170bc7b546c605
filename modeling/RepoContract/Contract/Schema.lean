/-
# RepoContract.Contract.Schema: what a contract document must hold

The schema is a list of fields with one constraint each. `Schema.complaints` says everything that
is wrong with a document, field by field and within a list item by item; a document that is no
object has that one fault.
-/
import RepoContract.Contract.Basic
import RepoContract.Json.Value
import RepoContract.Text.Blank

namespace RepoContract.Schema

set_option autoImplicit false

open Json (Value)

/-- What a field must be. -/
inductive Constraint where
  /-- Present, a text, and not only white space. -/
  | visibleText
  /-- Present, and an array of at least one text. -/
  | someTexts
  /-- One of some spellings. -/
  | oneOf (valid : List String) (required : Bool)
  /-- Absent, or an array of some spellings. -/
  | listOf (valid : List String)

/-- The fields with a constraint, in the order in which they are judged. -/
def fields : List (String × Constraint) := [
  ("version", .visibleText),
  ("languages", .someTexts),
  ("mode", .oneOf (Spelled.spellings Mode) true),
  ("modulePattern", .oneOf (Spelled.spellings ModulePattern) false),
  ("stateOwnership", .oneOf (Spelled.spellings StateOwnership) false),
  ("sideEffects", .oneOf (Spelled.spellings SideEffects) false),
  ("namingSchema", .oneOf (Spelled.spellings NamingSchema) false),
  ("allowedPatterns", .listOf patternIds),
  ("forbiddenPatterns", .listOf patternIds),
  ("roles", .listOf canonicalRoles)]

/-- One thing that is wrong with a document. -/
inductive Complaint where
  | notObject (kind : String)
  | missing (field : String)
  | blank (field : String)
  | noLanguage (field : String)
  | notText (field : String) (kind : String)
  | notList (field : String) (kind : String)
  | itemNotText (field : String) (index : Nat) (kind : String)
  | unknown (field : String) (value : String) (valid : List String)
  | unknownItem (field : String) (index : Nat) (value : String) (valid : List String)
  deriving DecidableEq, Repr

def Complaint.message : Complaint → String
  | .notObject kind => "contract must be a JSON object, got " ++ kind
  | .missing field => "missing required field '" ++ field ++ "'"
  | .blank field => "'" ++ field ++ "' must not be empty"
  | .noLanguage field => "'" ++ field ++ "' must list at least one language"
  | .notText field kind => "'" ++ field ++ "' must be a string, got " ++ kind
  | .notList field kind => "'" ++ field ++ "' must be an array of strings, got " ++ kind
  | .itemNotText field index kind => s!"{field}[{index}] must be a string, got {kind}"
  | .unknown field value valid =>
    "'" ++ field ++ "' has invalid value '" ++ value ++ "'. Valid values: "
      ++ ", ".intercalate valid
  | .unknownItem field index value valid =>
    s!"{field}[{index}] has invalid value '" ++ value ++ "'. Valid values: "
      ++ ", ".intercalate valid

/-- What is wrong with each item of a list, in order. -/
def itemComplaints (judge : Nat → Value → List Complaint) (items : List Value) : List Complaint :=
  items.zipIdx.flatMap fun (item, index) => judge index item

/-- What is wrong with a field whose value, if any, is given. -/
def Constraint.complaints (field : String) : Constraint → Option Value → List Complaint
  | .visibleText, none => [.missing field]
  | .visibleText, some (.text value) =>
    if (Text.trim value.toList).isEmpty then [.blank field] else []
  | .visibleText, some other => [.notText field other.kind]
  | .someTexts, none => [.missing field]
  | .someTexts, some (.array []) => [.noLanguage field]
  | .someTexts, some (.array items) =>
    itemComplaints (fun index item =>
      match item with
      | .text _ => []
      | other => [.itemNotText field index other.kind]) items
  | .someTexts, some other => [.notList field other.kind]
  | .oneOf _ required, none => if required then [.missing field] else []
  | .oneOf valid _, some (.text value) =>
    if valid.contains value then [] else [.unknown field value valid]
  | .oneOf _ _, some other => [.notText field other.kind]
  | .listOf _, none => []
  | .listOf valid, some (.array items) =>
    itemComplaints (fun index item =>
      match item with
      | .text value => if valid.contains value then [] else [.unknownItem field index value valid]
      | other => [.itemNotText field index other.kind]) items
  | .listOf _, some other => [.notList field other.kind]

/-- Everything that is wrong with a document. -/
def complaints : Value → List Complaint
  | .object members =>
    fields.flatMap fun (field, constraint) =>
      constraint.complaints field (Value.lookup? field members)
  | other => [.notObject other.kind]

end RepoContract.Schema
