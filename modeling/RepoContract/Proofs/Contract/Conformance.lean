/-
# RepoContract.Proofs.Contract.Conformance: complaints are the broken demands

A schema makes demands on a document: that it is an object, one on each field, and one on each
item of a field that lists something. `described` names the fields with their closed sets, and
`demands` says the demands in that order and then in that of the items, each with the place where it
stands; `Reports` relates a row of demands to the complaints that answer it, one for each broken
demand at its place and none for the others.

* `complaints_report`: the complaints about a document report its demands;
* `complaints_eq_nil_iff`: there are none exactly when the document conforms, where `Conforms`
  says in full what a contract document must hold, key by key.
-/
import RepoContract.Contract.Schema
import RepoContract.Proofs.Text.Blank

namespace RepoContract.Schema

set_option autoImplicit false

open Json (Value)

/-! ## Demands and the complaints that report them -/

/-- Where a demand stands. -/
inductive Place where
  | document
  | field (name : String)
  | item (name : String) (index : Nat)
  deriving DecidableEq, Repr

/-- The place a complaint is about. -/
def Complaint.place : Complaint → Place
  | .notObject _ => .document
  | .missing field => .field field
  | .blank field => .field field
  | .noLanguage field => .field field
  | .notText field _ => .field field
  | .notList field _ => .field field
  | .unknown field _ _ => .field field
  | .itemNotText field index _ => .item field index
  | .unknownItem field index _ _ => .item field index

/-- What has to hold at a place. -/
structure Demand where
  place : Place
  holds : Prop

/-- Complaints that answer demands in their order: one for each broken demand, at its place. -/
inductive Reports : List Demand → List Complaint → Prop where
  | nil : Reports [] []
  | kept {demand : Demand} {demands : List Demand} {complaints : List Complaint}
      (holds : demand.holds) (rest : Reports demands complaints) :
      Reports (demand :: demands) complaints
  | broken {demand : Demand} {demands : List Demand} {complaint : Complaint}
      {complaints : List Complaint} (fails : ¬ demand.holds) (here : complaint.place = demand.place)
      (rest : Reports demands complaints) : Reports (demand :: demands) (complaint :: complaints)

/-- A text of some spellings. -/
def Among (valid : List String) (value : Value) : Prop :=
  ∃ text ∈ valid, value = .text text

/-- What a constraint demands of a field as a whole. -/
def Constraint.Admits : Constraint → Option Value → Prop
  | .visibleText, value =>
      ∃ text : String, value = some (.text text) ∧ ∃ c ∈ text.toList, Text.isBlank c = false
  | .someTexts, value => ∃ items, value = some (.array items) ∧ items ≠ []
  | .oneOf valid required, value =>
      value = none ∧ required = false ∨ ∃ found, value = some found ∧ Among valid found
  | .listOf _, value => value = none ∨ ∃ items, value = some (.array items)

/-- What a constraint demands of each item. -/
def Constraint.AdmitsItem : Constraint → Value → Prop
  | .someTexts, item => ∃ text, item = .text text
  | .listOf valid, item => Among valid item
  | _, _ => True

/-- The items of a field whose constraint is on a list. -/
def Constraint.items : Constraint → Option Value → List Value
  | .someTexts, some (.array items) => items
  | .listOf _, some (.array items) => items
  | _, _ => []

/-- The demands of a constraint on a field: the field first, then its items. -/
def Constraint.demands (field : String) (constraint : Constraint) (value : Option Value) :
    List Demand :=
  ⟨.field field, constraint.Admits value⟩ ::
    (constraint.items value).zipIdx.map fun (item, index) =>
      ⟨.item field index, constraint.AdmitsItem item⟩

/-- What a contract document is to hold, field by field, in the order in which the fields are
described. -/
def described : List (String × Constraint) := [
  ("version", .visibleText),
  ("languages", .someTexts),
  ("mode", .oneOf ["lite", "strict"] true),
  ("modulePattern", .oneOf ["feature", "layer", "flat"] false),
  ("stateOwnership", .oneOf ["single-owner", "shared", "immutable"] false),
  ("sideEffects", .oneOf ["isolated", "explicit", "unrestricted"] false),
  ("namingSchema", .oneOf ["camelCase", "PascalCase", "snake_case", "kebab-case"] false),
  ("allowedPatterns", .listOf patternIds),
  ("forbiddenPatterns", .listOf patternIds),
  ("roles", .listOf ["entry", "service", "state", "ui", "util", "test"])]

/-- The fields are judged as they are described. -/
theorem fields_eq_described : fields = described :=
  rfl

/-- The demands on a document, in order. -/
def demands : Value → List Demand
  | .object members =>
      ⟨.document, True⟩ :: described.flatMap fun (field, constraint) =>
        constraint.demands field (Value.lookup? field members)
  | _ => [⟨.document, False⟩]

theorem Reports.append {first second : List Demand} {left right : List Complaint}
    (reports : Reports first left) (later : Reports second right) :
    Reports (first ++ second) (left ++ right) := by
  induction reports with
  | nil => exact later
  | kept holds _ ih => exact .kept holds ih
  | broken fails here _ ih => exact .broken fails here ih

theorem Reports.flatMap {α : Type} {demandsOf : α → List Demand}
    {complaintsOf : α → List Complaint} (each : ∀ x, Reports (demandsOf x) (complaintsOf x))
    (xs : List α) : Reports (xs.flatMap demandsOf) (xs.flatMap complaintsOf) := by
  induction xs with
  | nil => exact .nil
  | cons x rest ih =>
      rw [List.flatMap_cons, List.flatMap_cons]
      exact (each x).append ih

/-- No complaint means that every demand holds. -/
theorem Reports.eq_nil_iff {demands : List Demand} {complaints : List Complaint}
    (reports : Reports demands complaints) :
    complaints = [] ↔ ∀ demand ∈ demands, demand.holds := by
  induction reports with
  | nil => simp
  | kept holds _ ih => rw [ih, List.forall_mem_cons, and_iff_right holds]
  | broken fails here _ _ => simp [fails]

/-- A demand alone is reported by no complaint when it holds and by one when it does not. -/
theorem reports_one {place : Place} {holds : Prop} {complaints : List Complaint}
    (good : holds → complaints = [])
    (bad : ¬ holds → ∃ complaint, complaints = [complaint] ∧ complaint.place = place) :
    Reports [⟨place, holds⟩] complaints := by
  by_cases h : holds
  · rw [good h]
    exact .kept h .nil
  · obtain ⟨complaint, rfl, here⟩ := bad h
    exact .broken h here .nil

/-! ## The complaints of one constraint -/

/-- Judging items one by one reports the demands on them, whatever index the first one has. -/
theorem itemComplaints_report {field : String} {admits : Value → Prop}
    {judge : Nat → Value → List Complaint}
    (each : ∀ index item, Reports [⟨.item field index, admits item⟩] (judge index item))
    (items : List Value) :
    Reports (items.zipIdx.map fun (item, index) => ⟨.item field index, admits item⟩)
      (itemComplaints judge items) := by
  rw [List.map_eq_flatMap, itemComplaints]
  refine Reports.flatMap ?_ _
  rintro ⟨item, index⟩
  exact each index item

theorem visibleText_report (field : String) (value : Option Value) :
    Reports (Constraint.visibleText.demands field value)
      (Constraint.visibleText.complaints field value) := by
  apply reports_one
  · rintro ⟨text, rfl, c, member, visible⟩
    have nonempty : (Text.trim text.toList).isEmpty = false := by
      rw [Bool.eq_false_iff, Ne, List.isEmpty_iff, Text.trim_eq_nil_iff]
      intro blank
      simp [blank c member] at visible
    simp [Constraint.complaints, nonempty]
  · intro fails
    match value with
    | none => exact ⟨_, rfl, rfl⟩
    | some (.text text) =>
        have empty : (Text.trim text.toList).isEmpty = true := by
          rw [List.isEmpty_iff, Text.trim_eq_nil_iff]
          intro c member
          by_contra visible
          exact fails ⟨text, rfl, c, member, by simpa using visible⟩
        exact ⟨.blank field, by simp [Constraint.complaints, empty], rfl⟩
    | some .null | some (.bool _) | some (.number _) | some (.array _) | some (.object _) =>
        exact ⟨_, rfl, rfl⟩

theorem someTexts_report (field : String) (value : Option Value) :
    Reports (Constraint.someTexts.demands field value)
      (Constraint.someTexts.complaints field value) := by
  match value with
  | some (.array (item :: items)) =>
      rw [Constraint.demands, Constraint.complaints]
      · refine .kept ⟨_, rfl, List.cons_ne_nil _ _⟩ (itemComplaints_report ?_ _)
        intro index item
        apply reports_one
        · rintro ⟨text, rfl⟩
          rfl
        · intro fails
          match item with
          | .text text => exact absurd ⟨text, rfl⟩ fails
          | .null | .bool _ | .number _ | .array _ | .object _ => exact ⟨_, rfl, rfl⟩
      · exact List.cons_ne_nil _ _
  | none | some .null | some (.bool _) | some (.number _) | some (.text _) | some (.object _)
  | some (.array []) =>
      refine .broken ?_ rfl .nil
      simp [Constraint.Admits]

theorem among_text_iff {valid : List String} {text : String} :
    Among valid (.text text) ↔ text ∈ valid := by
  simp [Among]

theorem oneOf_report (field : String) (valid : List String) (required : Bool)
    (value : Option Value) :
    Reports ((Constraint.oneOf valid required).demands field value)
      ((Constraint.oneOf valid required).complaints field value) := by
  apply reports_one
  · rintro (⟨rfl, rfl⟩ | ⟨_, rfl, text, member, rfl⟩)
    · rfl
    · simp [Constraint.complaints, member]
  · intro fails
    match value with
    | none =>
        cases required with
        | true => exact ⟨_, rfl, rfl⟩
        | false => exact absurd (.inl ⟨rfl, rfl⟩) fails
    | some (.text text) =>
        have unknown : text ∉ valid := fun member =>
          fails (.inr ⟨_, rfl, among_text_iff.2 member⟩)
        exact ⟨.unknown field text valid, by simp [Constraint.complaints, unknown], rfl⟩
    | some .null | some (.bool _) | some (.number _) | some (.array _) | some (.object _) =>
        exact ⟨_, rfl, rfl⟩

theorem listOf_report (field : String) (valid : List String) (value : Option Value) :
    Reports ((Constraint.listOf valid).demands field value)
      ((Constraint.listOf valid).complaints field value) := by
  match value with
  | none => exact .kept (.inl rfl) .nil
  | some (.array items) =>
      rw [Constraint.demands, Constraint.complaints]
      refine .kept (.inr ⟨items, rfl⟩) (itemComplaints_report ?_ _)
      intro index item
      apply reports_one
      · rintro ⟨text, member, rfl⟩
        simp [member]
      · intro fails
        match item with
        | .text text =>
            have unknown : text ∉ valid := fun member => fails (among_text_iff.2 member)
            exact ⟨.unknownItem field index text valid, by simp [unknown], rfl⟩
        | .null | .bool _ | .number _ | .array _ | .object _ => exact ⟨_, rfl, rfl⟩
  | some .null | some (.bool _) | some (.number _) | some (.text _) | some (.object _) =>
      refine .broken ?_ rfl .nil
      simp [Constraint.Admits]

/-- **A constraint complains about exactly what it demands in vain**, in order. -/
theorem Constraint.complaints_report (field : String) (constraint : Constraint)
    (value : Option Value) :
    Reports (constraint.demands field value) (constraint.complaints field value) := by
  cases constraint with
  | visibleText => exact visibleText_report field value
  | someTexts => exact someTexts_report field value
  | oneOf valid required => exact oneOf_report field valid required value
  | listOf valid => exact listOf_report field valid value

/-! ## Documents without complaints -/

/-- **The complaints about a document report the demands on it.** -/
theorem complaints_report (document : Value) :
    Reports (demands document) (complaints document) := by
  cases document with
  | object members =>
      rw [complaints, fields_eq_described]
      exact .kept trivial (Reports.flatMap (fun field =>
        field.2.complaints_report field.1 (Value.lookup? field.1 members)) described)
  | null | bool _ | number _ | text _ | array _ => exact .broken id rfl .nil

/-- A list of texts that are all among some spellings. -/
def ListAmong (valid : List String) (value : Value) : Prop :=
  ∃ texts : List String, value = .array (texts.map .text) ∧ ∀ text ∈ texts, text ∈ valid

/-- A field that is not there, or holds what it should; a null that is there is a value. -/
def AbsentOr (holds : Value → Prop) (value : Option Value) : Prop :=
  value = none ∨ ∃ found, value = some found ∧ holds found

/-- What the members of a contract document must be; a key that is not named here is free. -/
structure Conforming (members : List (String × Value)) : Prop where
  version : ∃ text : String, Value.lookup? "version" members = some (.text text) ∧
    ∃ c ∈ text.toList, Text.isBlank c = false
  languages : ∃ texts : List String,
    Value.lookup? "languages" members = some (.array (texts.map .text)) ∧ texts ≠ []
  mode : ∃ found, Value.lookup? "mode" members = some found ∧ Among ["lite", "strict"] found
  modulePattern :
    AbsentOr (Among ["feature", "layer", "flat"]) (Value.lookup? "modulePattern" members)
  stateOwnership :
    AbsentOr (Among ["single-owner", "shared", "immutable"])
      (Value.lookup? "stateOwnership" members)
  sideEffects :
    AbsentOr (Among ["isolated", "explicit", "unrestricted"]) (Value.lookup? "sideEffects" members)
  namingSchema :
    AbsentOr (Among ["camelCase", "PascalCase", "snake_case", "kebab-case"])
      (Value.lookup? "namingSchema" members)
  allowedPatterns : AbsentOr (ListAmong patternIds) (Value.lookup? "allowedPatterns" members)
  forbiddenPatterns : AbsentOr (ListAmong patternIds) (Value.lookup? "forbiddenPatterns" members)
  roles : AbsentOr (ListAmong canonicalRoles) (Value.lookup? "roles" members)

/-- A contract document: an object whose members conform. -/
def Conforms (document : Value) : Prop :=
  ∃ members, document = .object members ∧ Conforming members

/-- All demands of a constraint on a field hold. -/
def Constraint.Met (constraint : Constraint) (value : Option Value) : Prop :=
  constraint.Admits value ∧ ∀ item ∈ constraint.items value, constraint.AdmitsItem item

theorem Constraint.demands_hold_iff (field : String) (constraint : Constraint)
    (value : Option Value) :
    (∀ demand ∈ constraint.demands field value, demand.holds) ↔ constraint.Met value := by
  simp only [Constraint.demands, List.forall_mem_cons, List.forall_mem_map, Constraint.Met]
  refine and_congr_right fun _ => ?_
  constructor
  · intro each item member
    obtain ⟨index, bound, rfl⟩ := List.getElem_of_mem member
    exact each (_, index) (List.mem_zipIdx_iff_getElem?.2 (by simp))
  · rintro each ⟨item, index⟩ member
    exact each item (List.fst_mem_of_mem_zipIdx member)

/-- Items that are all texts are the texts of a list. -/
theorem exists_texts {admits : String → Prop} {items : List Value}
    (each : ∀ item ∈ items, ∃ text, admits text ∧ item = .text text) :
    ∃ texts : List String, items = texts.map .text ∧ ∀ text ∈ texts, admits text := by
  induction items with
  | nil => exact ⟨[], rfl, by simp⟩
  | cons item rest ih =>
      obtain ⟨text, good, rfl⟩ := each item List.mem_cons_self
      obtain ⟨texts, rfl, allGood⟩ :=
        ih fun item member => each item (List.mem_cons_of_mem _ member)
      exact ⟨text :: texts, rfl, List.forall_mem_cons.2 ⟨good, allGood⟩⟩

theorem someTexts_met_iff (value : Option Value) :
    Constraint.someTexts.Met value ↔
      ∃ texts : List String, value = some (.array (texts.map .text)) ∧ texts ≠ [] := by
  constructor
  · rintro ⟨⟨items, rfl, nonempty⟩, each⟩
    have areTexts : ∀ item ∈ items, ∃ text : String, True ∧ item = .text text :=
      fun item member => (each item member).imp fun _ same => ⟨trivial, same⟩
    obtain ⟨texts, rfl, -⟩ := exists_texts areTexts
    exact ⟨texts, rfl, by simpa using nonempty⟩
  · rintro ⟨texts, rfl, nonempty⟩
    refine ⟨⟨_, rfl, by simpa using nonempty⟩, ?_⟩
    simp [Constraint.items, Constraint.AdmitsItem]

theorem visibleText_met_iff (value : Option Value) :
    Constraint.visibleText.Met value ↔
      ∃ text : String, value = some (.text text) ∧ ∃ c ∈ text.toList, Text.isBlank c = false := by
  simp [Constraint.Met, Constraint.Admits, Constraint.AdmitsItem]

theorem oneOf_required_met_iff (valid : List String) (value : Option Value) :
    (Constraint.oneOf valid true).Met value ↔ ∃ found, value = some found ∧ Among valid found := by
  simp [Constraint.Met, Constraint.Admits, Constraint.AdmitsItem]

theorem oneOf_optional_met_iff (valid : List String) (value : Option Value) :
    (Constraint.oneOf valid false).Met value ↔ AbsentOr (Among valid) value := by
  simp [Constraint.Met, Constraint.Admits, Constraint.AdmitsItem, AbsentOr]

theorem listOf_met_iff (valid : List String) (value : Option Value) :
    (Constraint.listOf valid).Met value ↔ AbsentOr (ListAmong valid) value := by
  constructor
  · rintro ⟨rfl | ⟨items, rfl⟩, each⟩
    · exact .inl rfl
    · obtain ⟨texts, rfl, known⟩ := exists_texts each
      exact .inr ⟨_, rfl, texts, rfl, known⟩
  · rintro (rfl | ⟨_, rfl, texts, rfl, known⟩)
    · exact ⟨.inl rfl, by simp [Constraint.items]⟩
    · refine ⟨.inr ⟨_, rfl⟩, ?_⟩
      simpa [Constraint.items, Constraint.AdmitsItem, among_text_iff] using known

/-- **There is nothing to complain about exactly when the document conforms.** -/
theorem complaints_eq_nil_iff (document : Value) :
    complaints document = [] ↔ Conforms document := by
  rw [(complaints_report document).eq_nil_iff]
  cases document with
  | object members =>
      have met : (∀ demand ∈ demands (.object members), demand.holds) ↔
          ∀ field ∈ described, field.2.Met (Value.lookup? field.1 members) := by
        simp only [demands, List.forall_mem_cons, List.forall_mem_flatMap, true_and,
          Constraint.demands_hold_iff]
      -- the fields that are described, one by one, against the fields of `Conforming`
      simp only [met, described, List.forall_mem_cons, visibleText_met_iff, someTexts_met_iff,
        oneOf_required_met_iff, oneOf_optional_met_iff, listOf_met_iff]
      constructor
      · rintro ⟨version, languages, mode, modulePattern, stateOwnership, sideEffects, namingSchema,
          allowedPatterns, forbiddenPatterns, roles, -⟩
        exact ⟨members, rfl, version, languages, mode, modulePattern, stateOwnership, sideEffects,
          namingSchema, allowedPatterns, forbiddenPatterns, roles⟩
      · rintro ⟨_, ⟨⟩, version, languages, mode, modulePattern, stateOwnership, sideEffects,
          namingSchema, allowedPatterns, forbiddenPatterns, roles⟩
        exact ⟨version, languages, mode, modulePattern, stateOwnership, sideEffects, namingSchema,
          allowedPatterns, forbiddenPatterns, roles, by simp⟩
  | null | bool _ | number _ | text _ | array _ => simp [demands, Conforms]

end RepoContract.Schema
