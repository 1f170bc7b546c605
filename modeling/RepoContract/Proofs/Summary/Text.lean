/-
# RepoContract.Proofs.Summary.Text: the report for people shows every finding once

The report goes over the records once for each way of showing them, and the tally has counted them
by severity and by whether they are clean. Both sort the records alike: told by severity and
violations alone (`Record.heading`), the blocks are those of the failed records, then of the
warnings, then, if asked for, of the clean ones (`Summary.shown`, `Summary.renderText_eq`). Nothing
with violations is lost or shown twice (`Summary.perm_shown`), and there are as many blocks of a
kind as the tally says (`Summary.countP_shown`).

Colour is read off again by a reader that knows no more of the report than what a colour sequence
looks like (`eraseColors`). A text decorates another when erasing leaves the other, whatever stands
behind it (`Decorates`). Painted text does, so does all text without the escape character, and what
is put together does when its parts do; so the report does (`Summary.decorates_renderText`). A
record that brings an escape character of its own may lose text of its own.
-/
import Mathlib.Data.List.Basic
import RepoContract.Proofs.Summary.Tally
import RepoContract.Summary.Text

namespace RepoContract

set_option autoImplicit false

/-! ## Which records are shown -/

/-- What the block of a record is headed by. -/
def Record.heading (record : Record) : String :=
  if record.violations = [] then "✓ PASSED"
  else
    match record.severity with
    | .error => "✗ FAILED"
    | .warn => "⚠ WARNING"

/-- The lines of the block of a record, the last one empty. -/
def Record.lines (record : Record) : List String :=
  [record.heading ++ ": " ++ record.id ++ " (" ++ record.name ++ ")"] ++
    record.violations.map (fun violation => "   " ++ violation.display) ++ [""]

/-- A text of some lines, each with its end. -/
def unlines (lines : List String) : String :=
  String.join (lines.map (· ++ "\n"))

namespace Summary

/-- The records of a severity that have violations. -/
def found (severity : Severity) (records : List Record) : List Record :=
  records.filter fun record => record.severity = severity ∧ record.violations ≠ []

/-- The records that are shown, in order. -/
def shown (verbosity : Nat) (records : List Record) : List Record :=
  found .error records ++ found .warn records ++
    if 1 ≤ verbosity then records.filter (·.violations = []) else []

theorem heading_eq (record : Record) :
    (Status.ofRecord record).icon ++ " " ++ (Status.ofRecord record).label = record.heading := by
  rcases record with ⟨id, name, severity, _ | ⟨violation, rest⟩⟩ <;> cases severity <;> rfl

theorem block_eq (record : Record) : record.block false = unlines record.lines := by
  have label : paint false (Status.ofRecord record).color (Status.ofRecord record).label =
      (Status.ofRecord record).label := rfl
  have ends : ")\n" = ")" ++ "\n" := rfl
  rw [Record.block, label, heading_eq, unlines, Record.lines, List.map_append, List.map_append,
    String.join_append, String.join_append, List.map_map, ends]
  simp only [List.map_singleton, String.join_cons, String.join_nil, String.append_empty,
    String.empty_append, String.append_assoc]
  rfl

/-- The records of a status are those of a severity with violations, or the clean ones. -/
theorem filter_status (records : List Record) :
    (records.filter fun record => Status.ofRecord record = .failed) = found .error records ∧
      (records.filter fun record => Status.ofRecord record = .warning) = found .warn records ∧
      (records.filter fun record => Status.ofRecord record = .passed) =
        records.filter (·.violations = []) := by
  refine ⟨List.filter_congr fun record _ => ?_, List.filter_congr fun record _ => ?_,
    List.filter_congr fun record _ => ?_⟩ <;>
  rcases record with ⟨id, name, severity, _ | ⟨violation, rest⟩⟩ <;> cases severity <;> rfl

/-- The line with the counts, without colour. -/
def plainTally (summary : Summary) (checked : Nat) : String :=
  "Summary: " ++ toString checked ++ " rules checked, " ++ toString summary.passed ++ " passed, " ++
    toString summary.warnings ++ " warnings, " ++ toString summary.failed ++ " failed\n"

/-- The records of a severity are the clean ones and those that are not. -/
theorem countOf_severity (severity : Severity) (records : List Record) :
    countOf severity true records + countOf severity false records =
      records.countP (·.severity = severity) := by
  induction records with
  | nil => rfl
  | cons record rest ih =>
      rw [countOf_cons, countOf_cons, List.countP_cons, ← ih]
      by_cases same : record.severity = severity <;> cases record.isClean <;> simp [same] <;> omega

/-- **The report without colour is the blocks of the records shown and the line with the counts.**
-/
theorem renderText_eq (records : List Record) (verbosity : Nat) :
    (ofRecords records).renderText false verbosity =
      String.join ((shown verbosity records).map fun record => unlines record.lines) ++
        plainTally (ofRecords records) (records.countP (·.severity = .error)) := by
  obtain ⟨failed, warning, passed⟩ := filter_status records
  have blocks (status : Status) : (ofRecords records).blocks false status =
      String.join ((records.filter fun record => Status.ofRecord record = status).map
        fun record => unlines record.lines) := by
    rw [blocks, ofRecords_eq]
    exact congrArg _ (List.map_congr_left fun record _ => block_eq record)
  have tally : (ofRecords records).tally false =
      plainTally (ofRecords records) (records.countP (·.severity = .error)) := by
    rw [← countOf_severity, ofRecords_eq]
    rfl
  rw [renderText, blocks, blocks, blocks, failed, warning, passed, tally, shown, List.map_append,
    List.map_append, String.join_append, String.join_append]
  congr 2
  split <;> split <;> first | rfl | omega

/-! ## Nothing is lost or shown twice -/

theorem found_eq_filter (severity : Severity) (records : List Record) :
    found severity records =
      (records.filter (·.violations ≠ [])).filter (·.severity = severity) := by
  rw [found, List.filter_filter]
  exact List.filter_congr fun record _ => by simp

/-- **Every record with violations is shown once**, whatever the verbosity. -/
theorem perm_shown (verbosity : Nat) (records : List Record) :
    ((shown verbosity records).filter (·.violations ≠ [])).Perm
      (records.filter (·.violations ≠ [])) := by
  have noClean : (if 1 ≤ verbosity then records.filter (·.violations = []) else []).filter
      (·.violations ≠ []) = [] := by
    split
    · rw [List.filter_filter, List.filter_eq_nil_iff]
      intro record _
      simp
    · rfl
  have kept (severity : Severity) :
      (found severity records).filter (·.violations ≠ []) = found severity records := by
    rw [List.filter_eq_self]
    intro record isFound
    have both := of_decide_eq_true (List.mem_filter.1 isFound).2
    exact decide_eq_true both.2
  have warn : found .warn records =
      (records.filter (·.violations ≠ [])).filter (fun record => !(record.severity = .error)) := by
    rw [found_eq_filter]
    refine List.filter_congr fun record _ => ?_
    cases record.severity <;> rfl
  rw [shown, List.filter_append, List.filter_append, noClean, List.append_nil, kept, kept, warn,
    found_eq_filter]
  exact List.filter_append_perm ..

/-- How many blocks have the heading of a severity. -/
theorem countP_shown {severity : Severity} {heading : String} (headed : ∀ record : Record,
      record.heading = heading ↔ record.severity = severity ∧ record.violations ≠ [])
    (verbosity : Nat) (records : List Record) :
    (shown verbosity records).countP (·.heading = heading) = countOf severity false records := by
  have counted : (shown verbosity records).countP (·.heading = heading) =
      ((shown verbosity records).filter (·.violations ≠ [])).countP (·.heading = heading) := by
    rw [List.countP_filter]
    refine List.countP_congr fun record _ => ?_
    simp [headed]
  rw [counted, (perm_shown verbosity records).countP_eq, List.countP_filter, countOf]
  refine List.countP_congr fun record _ => ?_
  simp [headed, Record.isClean]

theorem heading_eq_failed_iff (record : Record) :
    record.heading = "✗ FAILED" ↔ record.severity = .error ∧ record.violations ≠ [] := by
  rcases record with ⟨id, name, severity, _ | ⟨violation, rest⟩⟩ <;> cases severity <;>
    simp [Record.heading]

theorem heading_eq_warning_iff (record : Record) :
    record.heading = "⚠ WARNING" ↔ record.severity = .warn ∧ record.violations ≠ [] := by
  rcases record with ⟨id, name, severity, _ | ⟨violation, rest⟩⟩ <;> cases severity <;>
    simp [Record.heading]

end Summary

/-! ## Colour sequences -/

/-- The character that starts a colour sequence. -/
def escape : Char := '\x1b'

/-- How long the parameters of a colour sequence are, with the letter that ends them; none if
something else stands there. -/
def parametersLength? : List Char → Option Nat
  | [] => none
  | c :: rest =>
    if c = 'm' then some 1
    else if c.isDigit || c = ';' then (parametersLength? rest).map (· + 1)
    else none

/-- How long the colour sequence is that a text starts with. -/
def sequenceLength? : List Char → Option Nat
  | first :: second :: rest =>
    if first = escape ∧ second = '[' then (parametersLength? rest).map (· + 2) else none
  | _ => none

/-- A text without its colour sequences, and without so many characters at its front. -/
def eraseFrom : Nat → List Char → List Char
  | _, [] => []
  | skip + 1, _ :: rest => eraseFrom skip rest
  | 0, c :: rest =>
    match sequenceLength? (c :: rest) with
    | some length => eraseFrom (length - 1) rest
    | none => c :: eraseFrom 0 rest

/-- A text without its colour sequences. -/
def eraseColors (text : String) : String :=
  String.ofList (eraseFrom 0 text.toList)

/-- Whether erasing the colour sequences of a text leaves another, whatever stands behind it. -/
def Decorates (colored plain : String) : Prop :=
  ∀ rest, eraseFrom 0 (colored.toList ++ rest) = plain.toList ++ eraseFrom 0 rest

theorem eraseFrom_cons {c : Char} (plain : c ≠ escape) (rest : List Char) :
    eraseFrom 0 (c :: rest) = c :: eraseFrom 0 rest := by
  have noSequence : sequenceLength? (c :: rest) = none := by
    cases rest with
    | nil => rfl
    | cons d rest => rw [sequenceLength?, if_neg fun both => plain both.1]
  rw [eraseFrom, noSequence]

/-- Text without the escape character is not changed. -/
theorem eraseFrom_append {text : List Char} (plain : escape ∉ text) (rest : List Char) :
    eraseFrom 0 (text ++ rest) = text ++ eraseFrom 0 rest := by
  induction text with
  | nil => rfl
  | cons c text ih =>
      obtain ⟨notEscape, textPlain⟩ := not_or.1 (List.mem_cons.not.1 plain)
      rw [List.cons_append, eraseFrom_cons (Ne.symm notEscape), ih textPlain, List.cons_append]

theorem Decorates.rfl {text : String} (plain : escape ∉ text.toList) : Decorates text text :=
  eraseFrom_append plain

theorem Decorates.append {first second plainFirst plainSecond : String}
    (front : Decorates first plainFirst) (back : Decorates second plainSecond) :
    Decorates (first ++ second) (plainFirst ++ plainSecond) := by
  intro rest
  rw [String.toList_append, String.toList_append, List.append_assoc, front, back,
    List.append_assoc]

/-- Texts put together decorate what the texts decorate, put together. -/
theorem Decorates.join {α : Type} {items : List α} {colored plain : α → String}
    (each : ∀ item ∈ items, Decorates (colored item) (plain item)) :
    Decorates (String.join (items.map colored)) (String.join (items.map plain)) := by
  induction items with
  | nil =>
      show Decorates "" ""
      exact .rfl (by decide)
  | cons item items ih =>
      obtain ⟨here, others⟩ := List.forall_mem_cons.1 each
      rw [List.map_cons, List.map_cons, String.join_cons, String.join_cons]
      exact here.append (ih others)

theorem Decorates.eraseColors_eq {colored plain : String} (decorates : Decorates colored plain) :
    eraseColors colored = plain := by
  have erased := decorates []
  rw [List.append_nil, eraseFrom, List.append_nil] at erased
  rw [eraseColors, erased, String.ofList_toList]

theorem decorates_sequence (color : Color) : Decorates color.sequence "" := by
  intro rest
  cases color <;> rfl

theorem decorates_reset : Decorates resetSequence "" := fun _ => rfl

/-- **Painting decorates a text.** -/
theorem decorates_paint (color : Color) {text : String} (plain : escape ∉ text.toList) :
    Decorates (paint true color text) (paint false color text) := by
  have painted := ((decorates_sequence color).append (.rfl plain)).append decorates_reset
  rwa [String.empty_append, String.append_empty] at painted

/-! ## The coloured report -/

/-- No text of a record has the escape character. -/
structure Record.IsPlain (record : Record) : Prop where
  id : escape ∉ record.id.toList
  name : escape ∉ record.name.toList
  message : ∀ violation ∈ record.violations, escape ∉ violation.message.toList
  file : ∀ violation ∈ record.violations, ∀ path ∈ violation.file, escape ∉ path.display.toList

theorem escape_not_mem_toString (n : Nat) : escape ∉ (toString n).toList := by
  intro isIn
  have isDigit : escape.isDigit = true := by
    refine Nat.isDigit_of_mem_toDigits (b := 10) (n := n) (by decide) (by decide) ?_
    rwa [← Nat.toList_repr]
  exact absurd isDigit (by decide)

theorem Record.IsPlain.display {record : Record} (isPlain : record.IsPlain) {violation : Violation}
    (isViolation : violation ∈ record.violations) : escape ∉ violation.display.toList := by
  have message := isPlain.message violation isViolation
  have file := isPlain.file violation isViolation
  have colon : escape ∉ ": ".toList := by decide
  rw [Violation.display]
  split
  · next path line isFile isLine =>
      have number := escape_not_mem_toString line
      have shown := file path (by rw [isFile]; rfl)
      have mark : escape ∉ ":".toList := by decide
      simp only [String.toList_append, List.mem_append, not_or]
      exact ⟨⟨⟨⟨shown, mark⟩, number⟩, colon⟩, message⟩
  · next path isFile isLine =>
      have shown := file path (by rw [isFile]; rfl)
      simp only [String.toList_append, List.mem_append, not_or]
      exact ⟨⟨shown, colon⟩, message⟩
  · exact message

theorem decorates_violations {record : Record} (isPlain : record.IsPlain) :
    Decorates (.join (record.violations.map fun violation => "   " ++ violation.display ++ "\n"))
      (.join (record.violations.map fun violation => "   " ++ violation.display ++ "\n")) := by
  refine .join fun violation isViolation => ?_
  have indent : Decorates "   " "   " := .rfl (by decide)
  exact (indent.append (.rfl (isPlain.display isViolation))).append (.rfl (by decide))

/-- The coloured block of a record decorates the plain one. -/
theorem decorates_block {record : Record} (isPlain : record.IsPlain) :
    Decorates (record.block true) (record.block false) := by
  have icon : Decorates (Status.ofRecord record).icon (Status.ofRecord record).icon := by
    cases Status.ofRecord record <;> exact .rfl (by decide)
  have label : Decorates
      (paint true (Status.ofRecord record).color (Status.ofRecord record).label)
      (paint false (Status.ofRecord record).color (Status.ofRecord record).label) := by
    refine decorates_paint _ ?_
    cases Status.ofRecord record <;> decide
  rw [Record.block, Record.block]
  exact ((((((((icon.append (.rfl (by decide))).append label).append (.rfl (by decide))).append
    (.rfl isPlain.id)).append (.rfl (by decide))).append (.rfl isPlain.name)).append
    (.rfl (by decide))).append (decorates_violations isPlain)).append (.rfl (by decide))

namespace Summary

theorem decorates_tally (summary : Summary) :
    Decorates (summary.tally true) (summary.tally false) := by
  have number (color : Color) (n : Nat) :
      Decorates (paint true color (toString n)) (paint false color (toString n)) :=
    decorates_paint color (escape_not_mem_toString n)
  delta tally
  exact (((((((Decorates.rfl (by decide)).append (.rfl (escape_not_mem_toString _))).append
    (.rfl (by decide))).append (number _ _)).append (.rfl (by decide))).append
    (number _ _)).append (.rfl (by decide)) |>.append (number _ _)).append (.rfl (by decide))

/-- **The coloured report decorates the plain one.** -/
theorem decorates_renderText {summary : Summary}
    (plain : ∀ record ∈ summary.records, record.IsPlain) (verbosity : Nat) :
    Decorates (summary.renderText true verbosity) (summary.renderText false verbosity) := by
  have blocks (status : Status) :
      Decorates (summary.blocks true status) (summary.blocks false status) := by
    refine Decorates.join fun record isShown => decorates_block (plain record ?_)
    exact List.mem_of_mem_filter isShown
  have passed : Decorates (if verbosity = 0 then "" else summary.blocks true .passed)
      (if verbosity = 0 then "" else summary.blocks false .passed) := by
    split
    · exact .rfl (by decide)
    · exact blocks .passed
  rw [renderText, renderText]
  exact (((blocks .failed).append (blocks .warning)).append passed).append
    summary.decorates_tally

/-- **The report shows every finding once, and colour is only decoration.** Without colour it is the
blocks of the failed records, then of the warnings, then, from verbosity one on, of the clean
records, each in the order of the run and with all its violations in their order, and the line with
the counts. Every record with violations is shown once. There are as many blocks of failed records
and of warnings as the tally says, and as many rules have been checked as there are records of
severity error. If no text of a record has the escape character, erasing the colour sequences of the
coloured report leaves the report without colour. -/
theorem renderText_layout (records : List Record) (verbosity : Nat) (terminal : Bool) :
    let summary := ofRecords records
    let plain := summary.renderText (ColorChoice.never.isOn terminal) verbosity
    let colored := summary.renderText (ColorChoice.always.isOn terminal) verbosity
    let blocks := shown verbosity records
    plain = String.join (blocks.map fun record => unlines record.lines) ++
        plainTally summary (records.countP (·.severity = .error)) ∧
      (blocks.filter (·.violations ≠ [])).Perm (records.filter (·.violations ≠ [])) ∧
      blocks.countP (·.heading = "✗ FAILED") = summary.failed ∧
      blocks.countP (·.heading = "⚠ WARNING") = summary.warnings ∧
      ((∀ record ∈ records, record.IsPlain) → eraseColors colored = plain) := by
  intro summary plain colored blocks
  have isSummary : summary = ⟨countOf .error true records, countOf .error false records,
      countOf .warn false records, records⟩ := ofRecords_eq records
  refine ⟨renderText_eq records verbosity, perm_shown verbosity records, ?_, ?_, fun free => ?_⟩
  · rw [isSummary]
    exact countP_shown heading_eq_failed_iff verbosity records
  · rw [isSummary]
    exact countP_shown heading_eq_warning_iff verbosity records
  · have kept : ∀ record ∈ summary.records, record.IsPlain := by
      rw [isSummary]
      exact free
    exact (decorates_renderText kept verbosity).eraseColors_eq

/-- A failed record, a clean one and a warning, in this order. -/
def mixedRecords : List Record := [
  ⟨"forbidden-patterns", "Forbidden code patterns", .error,
    [.atLine (.ofString "a.js") 12 "eval", .general "[31m"]⟩,
  ⟨"agent-readme", "Agent README", .error, []⟩,
  ⟨"module-manifest", "Module manifest declarations", .warn, [.inFile (.ofString "b.js") "none"]⟩]

/-- The warning is shown in front of the clean record, and erasing takes the colours alone. -/
theorem renderText_layout_mixedRecords :
    (∀ record ∈ mixedRecords, record.IsPlain) ∧
      (ofRecords mixedRecords).renderText false 1 =
        "✗ FAILED: forbidden-patterns (Forbidden code patterns)\n   a.js:12: eval\n   [31m\n\n" ++
        "⚠ WARNING: module-manifest (Module manifest declarations)\n   b.js: none\n\n" ++
        "✓ PASSED: agent-readme (Agent README)\n\n" ++
        "Summary: 2 rules checked, 1 passed, 1 warnings, 1 failed\n" ∧
      (ofRecords mixedRecords).renderText true 1 ≠ (ofRecords mixedRecords).renderText false 1 ∧
      eraseColors ((ofRecords mixedRecords).renderText true 1) =
        (ofRecords mixedRecords).renderText false 1 := by
  have plain : ∀ record ∈ mixedRecords, record.IsPlain := by
    rw [mixedRecords, List.forall_mem_cons, List.forall_mem_cons, List.forall_mem_singleton]
    exact ⟨⟨by decide, by decide, by decide, by decide +kernel⟩,
      ⟨by decide, by decide, by decide, by decide⟩,
      ⟨by decide, by decide, by decide, by decide +kernel⟩⟩
  obtain ⟨-, -, -, -, erased⟩ := renderText_layout mixedRecords 1 false
  exact ⟨plain, by decide +kernel, by decide +kernel, erased plain⟩

end Summary

end RepoContract
