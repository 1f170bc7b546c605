/-
# RepoContract.Contract.Decoding: contracts from documents and back

`Contract.ofValue` decodes a document, field by field and without the schema: a field that is
absent or null takes its default where it has one. `Contract.toOutput` writes a contract with the
fields in their order and without those that say nothing.
-/
import RepoContract.Contract.Basic
import RepoContract.Json.Output
import RepoContract.Json.Value

namespace RepoContract

set_option autoImplicit false

open Json (Value Output)

/-- The field that keeps a document from being decoded. -/
inductive Undecodable where
  | notObject
  | missing (field : String)
  | mismatch (field : String)
  deriving DecidableEq, Repr

def Undecodable.message : Undecodable → String
  | .notObject => "invalid type: expected an object"
  | .missing field => s!"missing field `{field}`"
  | .mismatch field => s!"invalid value for field `{field}`"

namespace Contract

def textOf? : Value → Option String
  | .text value => some value
  | _ => none

def textsOf? : Value → Option (List String)
  | .array items => items.mapM textOf?
  | _ => none

def memberOf? {α : Type} [Spelled α] (value : Value) : Option α :=
  (textOf? value).bind Spelled.ofSpelling?

/-- Decode a field that has to be there. -/
def required {α : Type} (read : Value → Option α) (members : List (String × Value))
    (field : String) : Except Undecodable α :=
  match Value.lookup? field members with
  | none => .error (.missing field)
  | some value =>
    match read value with
    | some result => .ok result
    | none => .error (.mismatch field)

/-- Decode a field that may be left out. -/
def optional {α : Type} (read : Value → Option α) (members : List (String × Value))
    (field : String) : Except Undecodable (Option α) :=
  match Value.lookup? field members with
  | none => .ok none
  | some .null => .ok none
  | some value =>
    match read value with
    | some result => .ok (some result)
    | none => .error (.mismatch field)

/-- Decode a list that is empty when left out. -/
def listed (members : List (String × Value)) (field : String) :
    Except Undecodable (List String) :=
  match Value.lookup? field members with
  | none => .ok []
  | some value =>
    match textsOf? value with
    | some result => .ok result
    | none => .error (.mismatch field)

/-- Decode a document. -/
def ofValue : Value → Except Undecodable Contract
  | .object members => do
    let version ← required textOf? members "version"
    let languages ← required textsOf? members "languages"
    let mode ← required memberOf? members "mode"
    let modulePattern ← optional memberOf? members "modulePattern"
    let stateOwnership ← optional memberOf? members "stateOwnership"
    let sideEffects ← optional memberOf? members "sideEffects"
    let namingSchema ← optional memberOf? members "namingSchema"
    let allowedPatterns ← listed members "allowedPatterns"
    let forbiddenPatterns ← listed members "forbiddenPatterns"
    let roles ← listed members "roles"
    return { version, languages, mode, modulePattern, stateOwnership, sideEffects, namingSchema,
             allowedPatterns, forbiddenPatterns, roles }
  | _ => .error .notObject

/-- A list of texts as a document. -/
def textsOutput (texts : List String) : Output :=
  .list (texts.map .text)

def optionalMember {α : Type} [Spelled α] (field : String) :
    Option α → List (String × Output)
  | none => []
  | some member => [(field, .text (Spelled.spelling member))]

def listMember (field : String) (texts : List String) : List (String × Output) :=
  if texts.isEmpty then [] else [(field, textsOutput texts)]

/-- The document of a contract. -/
def toOutput (contract : Contract) : Output :=
  .record (
    [("version", .text contract.version),
      ("languages", textsOutput contract.languages),
      ("mode", .text (Spelled.spelling contract.mode))]
    ++ optionalMember "modulePattern" contract.modulePattern
    ++ optionalMember "stateOwnership" contract.stateOwnership
    ++ optionalMember "sideEffects" contract.sideEffects
    ++ optionalMember "namingSchema" contract.namingSchema
    ++ listMember "allowedPatterns" contract.allowedPatterns
    ++ listMember "forbiddenPatterns" contract.forbiddenPatterns
    ++ listMember "roles" contract.roles)

/-- The text of a contract. -/
def render (contract : Contract) : String :=
  contract.toOutput.render

end Contract

end RepoContract
