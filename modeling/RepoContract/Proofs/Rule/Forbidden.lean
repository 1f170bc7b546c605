/-
# RepoContract.Proofs.Rule.Forbidden: what the check for forbidden patterns reports

The check is three loops one inside the other: over the source files, over the lines of code of a
file, and over the catalog entries that a contract enforces. `Project.Offends` says without them
when a listed file, a line and an id are an offence: the file can be read and is in a known
language, the mask does not mark the line, the id is forbidden and not allowed again, and the
entry of that id has a pattern for the language which matches the line.

The violations are told by findings, which also hold the places in the three lists
(`Project.findings`). For a contract that passes the schema there is one finding for each offence
of a listed file and each place of its id among the forbidden ones, they come in the order of the
places, and no id enforced is unknown to the catalog (`Rule.checkForbidden_reports`). A language in
which a block opens and closes with nothing is not meant (`Delimiters.track`).
-/
import RepoContract.Proofs.Contract.RoundTrip
import RepoContract.Proofs.Rule.Scope
import RepoContract.Proofs.Selection
import RepoContract.Proofs.Source

namespace RepoContract

set_option autoImplicit false

/-! ## Entries and the violations that name them -/

namespace ForbiddenPattern

/-- What a violation says of an entry. -/
def message (entry : ForbiddenPattern) : String :=
  "forbidden pattern '" ++ entry.id ++ "' (" ++ entry.description ++ ")"

theorem find?_eq_some {id : String} {entry : ForbiddenPattern} (found : find? id = some entry) :
    entry ∈ catalog ∧ entry.id = id :=
  ⟨List.mem_of_find?_eq_some found, by simpa using List.find?_some found⟩

/-- The ids that a contract may forbid are those of the catalog. -/
theorem exists_of_mem_patternIds {id : String} (isKnown : id ∈ patternIds) :
    ∃ entry, find? id = some entry := by
  rw [← catalog_ids, List.mem_map] at isKnown
  obtain ⟨entry, isEntry, rfl⟩ := isKnown
  refine Option.isSome_iff_exists.1 (List.find?_isSome.2 ⟨entry, isEntry, ?_⟩)
  exact beq_self_eq_true entry.id

/-- A message tells the id of its entry. -/
theorem id_of_message : ∀ entry ∈ catalog, ∀ other ∈ catalog,
    entry.message = other.message → entry.id = other.id := by
  decide +kernel

end ForbiddenPattern

/-- A violation reports an entry of the catalog at a line of a file. -/
def Violation.Names (violation : Violation) (file : Path) (line : Nat) (id : String) : Prop :=
  ∃ entry, ForbiddenPattern.find? id = some entry ∧ violation = .atLine file line entry.message

instance (violation : Violation) (file : Path) (line : Nat) (id : String) :
    Decidable (violation.Names file line id) :=
  decidable_of_iff (∃ entry ∈ ForbiddenPattern.find? id, violation = .atLine file line entry.message)
    (by simp only [Option.mem_def, Violation.Names])

/-- A violation tells what it reports. -/
theorem Violation.Names.unique {violation : Violation} {file other : Path} {line number : Nat}
    {id name : String} (first : violation.Names file line id)
    (second : violation.Names other number name) : file = other ∧ line = number ∧ id = name := by
  obtain ⟨entry, found, rfl⟩ := first
  obtain ⟨otherEntry, foundOther, same⟩ := second
  obtain ⟨isEntry, rfl⟩ := ForbiddenPattern.find?_eq_some found
  obtain ⟨isOther, rfl⟩ := ForbiddenPattern.find?_eq_some foundOther
  simp only [atLine, mk.injEq, Option.some.injEq] at same
  obtain ⟨sameFile, sameLine, sameMessage⟩ := same
  exact ⟨sameFile, sameLine,
    ForbiddenPattern.id_of_message entry isEntry otherEntry isOther sameMessage⟩

/-! ## Offences -/

/-- A listed file offends on a line against an id. -/
structure Project.Offends (project : Project) (listed : Path) (number : Nat) (id : String) :
    Prop where
  forbidden : id ∈ project.contract.forbiddenPatterns
  notAllowed : id ∉ project.contract.allowedPatterns
  fires : ∃ language bytes index line entry expr,
    SourceFile.classify? project.languages listed = some language ∧
    project.world.read listed = .ok bytes ∧ number = index + 1 ∧
    (Text.lines (Text.Utf8.decodeLossy bytes))[index]? = some line ∧
    (language.comments.mask (Text.Utf8.decodeLossy bytes))[index]? = some false ∧
    ForbiddenPattern.find? id = some entry ∧ entry.matcher? language.name = some expr ∧
    expr.isMatch line = true

namespace Rule

variable {contract : Contract} {source : SourceFile} {number : Nat} {line : List Char}
  {id : String} {violation : Violation}

/-- What an id that is forbidden comes to on a line of code. -/
def offence? (contract : Contract) (source : SourceFile) (number : Nat) (line : List Char)
    (id : String) : Option Violation :=
  if id ∈ contract.allowedPatterns then none
  else (ForbiddenPattern.find? id).bind fun entry =>
    if entry.firesOn source.language.name line then
      some (.atLine source.path number entry.message)
    else none

theorem offence?_eq_some_iff :
    offence? contract source number line id = some violation ↔
      id ∉ contract.allowedPatterns ∧ ∃ entry, ForbiddenPattern.find? id = some entry ∧
        entry.firesOn source.language.name line = true ∧
        violation = .atLine source.path number entry.message := by
  rw [offence?]
  split_ifs with allowed
  · simp [allowed]
  · simp only [Option.bind_eq_some_iff, Option.ite_none_right_eq_some, Option.some.injEq, allowed,
      not_false_eq_true, true_and, eq_comm (a := violation)]

/-- The violations of a line are what the ids that are forbidden come to, one after the other. -/
theorem judgeLine_eq (contract : Contract) (source : SourceFile) (number : Nat)
    (line : List Char) :
    judgeLine (enforcedEntries contract) source number line =
      contract.forbiddenPatterns.filterMap (offence? contract source number line) := by
  rw [judgeLine, enforcedEntries, Contract.enforcedPatterns, List.filter_filterMap,
    List.filterMap_filter, List.map_filterMap]
  refine List.filterMap_congr fun id _ => ?_
  rw [offence?]
  by_cases allowed : id ∈ contract.allowedPatterns
  · rw [if_pos allowed, if_neg (by simpa using allowed)]
    rfl
  · rw [if_neg allowed, if_pos (by simpa using allowed)]
    cases ForbiddenPattern.find? id with
    | none => rfl
    | some entry =>
        rw [Option.filter_some, Option.bind_some]
        split_ifs <;> rfl

/-- An id fires on a line of code: it is not allowed again, and its entry matches. -/
def Fires (contract : Contract) (source : SourceFile) (line : List Char) (id : String) : Prop :=
  id ∉ contract.allowedPatterns ∧
    ∃ entry ∈ ForbiddenPattern.find? id, entry.firesOn source.language.name line = true

instance (contract : Contract) (source : SourceFile) (line : List Char) (id : String) :
    Decidable (Fires contract source line id) :=
  inferInstanceAs (Decidable (_ ∧ ∃ entry ∈ ForbiddenPattern.find? id, _))

end Rule

namespace Project

open Rule (Fires offence? offence?_eq_some_iff judgeLine_eq)

variable {project : Project} {listed : Path} {number : Nat} {id : String}

/-- An offence is an id that is forbidden and fires on a line of code. -/
theorem offends_iff :
    project.Offends listed number id ↔ id ∈ project.contract.forbiddenPatterns ∧
      ∃ source ∈ project.source? listed, ∃ numbered ∈ source.codeLines,
        numbered.1 = number ∧ Fires project.contract source numbered.2 id := by
  constructor
  · rintro ⟨forbidden, notAllowed, language, bytes, index, line, entry, expr, classified, isRead,
      rfl, isLine, isCode, isEntry, isMatcher, matched⟩
    refine ⟨forbidden, _, source?_eq_some_iff.2 ⟨language, bytes, classified, isRead, rfl⟩,
      (index + 1, line), ?_, rfl, notAllowed, entry, isEntry, ?_⟩
    · exact SourceFile.mem_codeLines_iff.2 ⟨index, rfl, isLine, isCode⟩
    · rw [ForbiddenPattern.firesOn, isMatcher]
      exact matched
  · rintro ⟨forbidden, source, isSource, ⟨number, line⟩, isCode, rfl, notAllowed, entry, isEntry,
      fires⟩
    obtain ⟨language, bytes, classified, isRead, rfl⟩ := source?_eq_some_iff.1 isSource
    obtain ⟨index, rfl, isLine, isCode⟩ := SourceFile.mem_codeLines_iff.1 isCode
    obtain ⟨expr, isMatcher, matched⟩ := (Option.any_eq_true _ _).1 fires
    exact ⟨forbidden, notAllowed, language, bytes, index, line, entry, expr, classified, isRead,
      rfl, isLine, isCode, isEntry, isMatcher, matched⟩

instance : Decidable (project.Offends listed number id) :=
  decidable_of_iff' _ offends_iff

/-! ## Findings -/

/-- A violation with its places: that of the file among those listed, that of the line, and that of
the id among those forbidden. -/
structure Finding where
  file : Nat
  line : Nat
  pattern : Nat
  violation : Violation

/-- The order of findings: by file, then by line, then by pattern. -/
def Finding.Before (earlier later : Finding) : Prop :=
  earlier.file < later.file ∨ earlier.file = later.file ∧
    (earlier.line < later.line ∨ earlier.line = later.line ∧ earlier.pattern < later.pattern)

/-- The findings on a line of code of the file at some place. -/
def lineFindings (contract : Contract) (place : Nat) (source : SourceFile) (number : Nat)
    (line : List Char) : List Finding :=
  contract.forbiddenPatterns.zipIdx.filterMap fun (id, pattern) =>
    (offence? contract source number line id).map fun violation =>
      ⟨place, number, pattern, violation⟩

/-- The findings in the file at some place. -/
def fileFindings (contract : Contract) (place : Nat) (source : SourceFile) : List Finding :=
  source.codeLines.flatMap fun (number, line) => lineFindings contract place source number line

def findings (project : Project) : List Finding :=
  project.files.files.zipIdx.flatMap fun (listed, place) =>
    (project.source? listed).toList.flatMap (fileFindings project.contract place)

/-! ### Findings without their places -/

theorem map_lineFindings (contract : Contract) (place : Nat) (source : SourceFile) (number : Nat)
    (line : List Char) :
    (lineFindings contract place source number line).map (·.violation) =
      Rule.judgeLine (Rule.enforcedEntries contract) source number line := by
  rw [judgeLine_eq, lineFindings, List.map_filterMap]
  conv_rhs => rw [← List.zipIdx_map_fst 0 contract.forbiddenPatterns, List.filterMap_map]
  refine List.filterMap_congr fun (id, pattern) _ => ?_
  rw [Option.map_map]
  exact Option.map_id' ..

theorem map_fileFindings (contract : Contract) (place : Nat) (source : SourceFile) :
    (fileFindings contract place source).map (·.violation) =
      Rule.judgeForbidden contract source := by
  rw [fileFindings, Rule.judgeForbidden, List.map_flatMap]
  exact List.flatMap_congr fun _ _ => map_lineFindings ..

/-- The findings are what the check reports. -/
theorem checkForbidden_eq_findings (project : Project) :
    Rule.checkForbidden project = .found (project.findings.map (·.violation)) := by
  rw [Rule.checkForbidden_eq, flatMap_sources, findings, List.map_flatMap]
  conv_lhs => rw [← List.zipIdx_map_fst 0 project.files.files, List.flatMap_map]
  congr 1
  refine List.flatMap_congr fun (listed, place) _ => ?_
  rw [List.map_flatMap]
  exact List.flatMap_congr fun _ _ => (map_fileFindings ..).symm

/-! ### The order of the findings -/

theorem pairwise_lineFindings (contract : Contract) (place : Nat) (source : SourceFile)
    (number : Nat) (line : List Char) :
    (lineFindings contract place source number line).Pairwise Finding.Before := by
  rw [lineFindings, List.pairwise_filterMap]
  refine (pairwise_zipIdx _).imp ?_
  rintro ⟨_, earlier⟩ ⟨_, later⟩ before _ found _ foundLater
  obtain ⟨_, -, rfl⟩ := Option.map_eq_some_iff.1 found
  obtain ⟨_, -, rfl⟩ := Option.map_eq_some_iff.1 foundLater
  exact .inr ⟨rfl, .inr ⟨rfl, before⟩⟩

theorem mem_lineFindings_iff {contract : Contract} {place : Nat} {source : SourceFile}
    {line : List Char} {finding : Finding} :
    finding ∈ lineFindings contract place source number line ↔
      finding.file = place ∧ finding.line = number ∧ ∃ id,
        contract.forbiddenPatterns[finding.pattern]? = some id ∧
        offence? contract source number line id = some finding.violation := by
  obtain ⟨file, lineNumber, pattern, violation⟩ := finding
  simp only [lineFindings, List.mem_filterMap, Option.map_eq_some_iff, Prod.exists,
    List.mk_mem_zipIdx_iff_getElem?, Finding.mk.injEq]
  constructor
  · rintro ⟨id, _, isId, _, found, rfl, rfl, rfl, rfl⟩
    exact ⟨rfl, rfl, id, isId, found⟩
  · rintro ⟨rfl, rfl, id, isId, found⟩
    exact ⟨id, _, isId, _, found, rfl, rfl, rfl, rfl⟩

theorem mem_fileFindings_iff {contract : Contract} {place : Nat} {source : SourceFile}
    {finding : Finding} :
    finding ∈ fileFindings contract place source ↔ finding.file = place ∧ ∃ line,
      (finding.line, line) ∈ source.codeLines ∧
      ∃ id, contract.forbiddenPatterns[finding.pattern]? = some id ∧
        offence? contract source finding.line line id = some finding.violation := by
  simp only [fileFindings, List.mem_flatMap, Prod.exists, mem_lineFindings_iff]
  constructor
  · rintro ⟨_, line, isCode, isFile, rfl, found⟩
    exact ⟨isFile, line, isCode, found⟩
  · rintro ⟨isFile, line, isCode, found⟩
    exact ⟨_, line, isCode, isFile, rfl, found⟩

theorem pairwise_fileFindings (contract : Contract) (place : Nat) (source : SourceFile) :
    (fileFindings contract place source).Pairwise Finding.Before := by
  rw [fileFindings, List.pairwise_flatMap]
  refine ⟨fun _ _ => pairwise_lineFindings .., source.pairwise_codeLines.imp ?_⟩
  rintro ⟨_, _⟩ ⟨_, _⟩ before earlier isEarlier later isLater
  obtain ⟨sameFile, rfl, -⟩ := mem_lineFindings_iff.1 isEarlier
  obtain ⟨sameFileLater, rfl, -⟩ := mem_lineFindings_iff.1 isLater
  exact .inr ⟨sameFile.trans sameFileLater.symm, .inl before⟩

/-- **Findings come in the order of files, of lines and of patterns.** -/
theorem pairwise_findings (project : Project) : project.findings.Pairwise Finding.Before := by
  rw [findings, List.pairwise_flatMap]
  constructor
  · rintro ⟨listed, place⟩ -
    refine List.pairwise_flatMap.2 ⟨fun _ _ => pairwise_fileFindings .., ?_⟩
    cases project.source? listed with
    | none => exact .nil
    | some source => exact List.pairwise_singleton ..
  · refine (pairwise_zipIdx _).imp ?_
    rintro ⟨_, _⟩ ⟨_, _⟩ before earlier isEarlier later isLater
    obtain ⟨_, -, isEarlier⟩ := List.mem_flatMap.1 isEarlier
    obtain ⟨_, -, isLater⟩ := List.mem_flatMap.1 isLater
    rw [(mem_fileFindings_iff.1 isEarlier).1.symm, (mem_fileFindings_iff.1 isLater).1.symm] at before
    exact .inl before

/-- **A finding is an offence at its places**, and its violation names the offence. -/
theorem mem_findings_iff {finding : Finding} :
    finding ∈ project.findings ↔ ∃ listed id,
      project.files.files[finding.file]? = some listed ∧
      project.contract.forbiddenPatterns[finding.pattern]? = some id ∧
      project.Offends listed finding.line id ∧
      finding.violation.Names (project.files.relative listed) finding.line id := by
  simp only [findings, List.mem_flatMap, Option.mem_toList, Prod.exists,
    List.mk_mem_zipIdx_iff_getElem?, mem_fileFindings_iff]
  constructor
  · rintro ⟨listed, _, isListed, source, isSource, rfl, line, isCode, id, isId, found⟩
    obtain ⟨notAllowed, entry, isEntry, fires, isViolation⟩ := offence?_eq_some_iff.1 found
    have forbidden := List.mem_of_getElem? isId
    refine ⟨listed, id, isListed, isId, ?_, entry, isEntry, ?_⟩
    · exact offends_iff.2
        ⟨forbidden, source, isSource, _, isCode, rfl, notAllowed, entry, isEntry, fires⟩
    · obtain ⟨_, _, -, -, rfl⟩ := source?_eq_some_iff.1 isSource
      exact isViolation
  · rintro ⟨listed, id, isListed, isId, offends, entry, isEntry, isViolation⟩
    obtain ⟨-, source, isSource, ⟨_, line⟩, isCode, rfl, notAllowed, other, isOther, fires⟩ :=
      offends_iff.1 offends
    cases isEntry.symm.trans isOther
    refine ⟨listed, _, isListed, source, isSource, rfl, line, isCode, id, isId, ?_⟩
    obtain ⟨_, _, -, -, rfl⟩ := source?_eq_some_iff.1 isSource
    exact offence?_eq_some_iff.2 ⟨notAllowed, entry, isEntry, fires, isViolation⟩

end Project

/-- A contract that is decoded from a document without complaints is admissible. -/
theorem Contract.admissible_of_passes {document : Json.Value} {contract : Contract}
    (passes : Schema.complaints document = []) (decoded : ofValue document = .ok contract) :
    contract.Admissible := by
  obtain ⟨members, rfl, conforming⟩ := (Schema.complaints_eq_nil_iff document).1 passes
  obtain ⟨described, describes⟩ := exists_describes conforming
  cases describes.ofValue_eq.symm.trans decoded
  exact describes.admissible conforming

namespace Rule

variable {project : Project}

/-- The catalog has an entry for every id that an admissible contract enforces. -/
theorem map_enforcedEntries {contract : Contract} (admissible : contract.Admissible) :
    (enforcedEntries contract).map (·.id) = contract.enforcedPatterns := by
  rw [enforcedEntries, List.map_filterMap]
  refine (List.filterMap_congr fun id isEnforced => ?_).trans List.filterMap_some
  have forbidden := (List.mem_filter.1 isEnforced).1
  obtain ⟨entry, found⟩ :=
    ForbiddenPattern.exists_of_mem_patternIds (admissible.forbiddenPatterns id forbidden)
  rw [found, Option.map_some, (ForbiddenPattern.find?_eq_some found).2]

/-- **Forbidden patterns are reported exactly where code offends.** With a contract that passes the
schema, the check completes with the violations of a row of findings. They are ordered by the
places of file, line and id; there is one for each file, line and id that are an offence, and its
violation names the offence by the path of the file as seen from the root. So the offences that are
named are those of the listed files, no violation says anything else, and no id enforced is lost in
the catalog. -/
theorem checkForbidden_reports {document : Json.Value}
    (passes : Schema.complaints document = [])
    (decoded : Contract.ofValue document = .ok project.contract) :
    ∃ findings : List Project.Finding,
      checkForbidden project = .found (findings.map (·.violation)) ∧
      findings.Pairwise Project.Finding.Before ∧
      (∀ finding, finding ∈ findings ↔ ∃ listed id,
        project.files.files[finding.file]? = some listed ∧
        project.contract.forbiddenPatterns[finding.pattern]? = some id ∧
        project.Offends listed finding.line id ∧
        finding.violation.Names (project.files.relative listed) finding.line id) ∧
      (∀ file line id,
        (∃ violation ∈ findings.map (·.violation), violation.Names file line id) ↔
          ∃ listed ∈ project.files.files,
            project.files.relative listed = file ∧ project.Offends listed line id) ∧
      (∀ violation ∈ findings.map (·.violation), ∃! offence : Path × Nat × String,
        violation.Names offence.1 offence.2.1 offence.2.2) ∧
      (enforcedEntries project.contract).map (·.id) = project.contract.enforcedPatterns := by
  refine ⟨project.findings, Project.checkForbidden_eq_findings project,
    Project.pairwise_findings project, fun _ => Project.mem_findings_iff, ?_, ?_,
    map_enforcedEntries (Contract.admissible_of_passes passes decoded)⟩
  · intro file line id
    constructor
    · rintro ⟨_, isViolation, names⟩
      obtain ⟨finding, isFinding, rfl⟩ := List.mem_map.1 isViolation
      obtain ⟨listed, other, isListed, -, offends, namesOther⟩ :=
        Project.mem_findings_iff.1 isFinding
      obtain ⟨rfl, rfl, rfl⟩ := names.unique namesOther
      exact ⟨listed, List.mem_of_getElem? isListed, rfl, offends⟩
    · rintro ⟨listed, isListed, rfl, offends⟩
      obtain ⟨place, isPlace⟩ := List.mem_iff_getElem?.1 isListed
      obtain ⟨pattern, isPattern⟩ := List.mem_iff_getElem?.1 offends.forbidden
      obtain ⟨_, _, _, _, entry, _, -, -, -, -, -, isEntry, -⟩ := offends.fires
      let violation : Violation := .atLine (project.files.relative listed) line entry.message
      have names : violation.Names (project.files.relative listed) line id := ⟨entry, isEntry, rfl⟩
      have isFinding : ⟨place, line, pattern, violation⟩ ∈ project.findings :=
        Project.mem_findings_iff.2 ⟨listed, id, isPlace, isPattern, offends, names⟩
      exact ⟨violation, List.mem_map_of_mem isFinding, names⟩
  · intro _ isViolation
    obtain ⟨finding, isFinding, rfl⟩ := List.mem_map.1 isViolation
    obtain ⟨listed, id, -, -, -, names⟩ := Project.mem_findings_iff.1 isFinding
    refine ⟨(_, _, _), names, ?_⟩
    rintro ⟨file, line, other⟩ namesOther
    obtain ⟨rfl, rfl, rfl⟩ := Violation.Names.unique namesOther names
    rfl

/-- A contract that forbids two patterns and allows the first of them again. -/
def allowingAgain : Contract :=
  { Contract.minimal ["javascript"] .lite with
    allowedPatterns := ["console-log"]
    forbiddenPatterns := ["console-log", "dynamic-eval"] }

/-- A script with a call of `eval` in a comment and another in code. -/
def offending : Project :=
  ⟨⟨.ofEntries [("a.js", .ofText "// eval(x)\nconsole.log(eval(y))\n")], []⟩, Path.ofString ".",
    allowingAgain, ⟨Path.ofString ".", [Path.ofString "./a.js"]⟩, .builtIn⟩

/-- Of three places where a pattern matches, the one in code that is not allowed again is
reported. -/
theorem checkForbidden_reports_offending :
    ∃ document, Schema.complaints document = [] ∧
      Contract.ofValue document = .ok offending.contract ∧
      ∃ violations, checkForbidden offending = .found violations ∧
        (∃ violation ∈ violations, violation.Names (Path.ofString "a.js") 2 "dynamic-eval") ∧
        (¬ ∃ violation ∈ violations, violation.Names (Path.ofString "a.js") 1 "dynamic-eval") ∧
        ¬ ∃ violation ∈ violations, violation.Names (Path.ofString "a.js") 2 "console-log" := by
  let document : Json.Value := .object [("version", .text "1.0"),
    ("languages", .array [.text "javascript"]), ("mode", .text "lite"),
    ("allowedPatterns", .array [.text "console-log"]),
    ("forbiddenPatterns", .array [.text "console-log", .text "dynamic-eval"])]
  have passes : Schema.complaints document = [] := by decide +kernel
  have decoded : Contract.ofValue document = .ok offending.contract := by rfl
  have isSource : offending.source? (Path.ofString "./a.js") = some ⟨Path.ofString "a.js",
      ⟨"javascript", ["js", "mjs", "cjs", "jsx"], LanguageTable.slashComments,
        LanguageTable.scriptExport⟩, "// eval(x)\nconsole.log(eval(y))\n".toList⟩ := by
    cbv
  obtain ⟨findings, reports, -, -, offences, -⟩ := checkForbidden_reports passes decoded
  refine ⟨document, passes, decoded, _, reports, ?_⟩
  have listed : offending.files.files = [Path.ofString "./a.js"] := rfl
  simp only [offences, listed, List.mem_singleton, exists_eq_left, Project.offends_iff, isSource,
    Option.mem_some_iff, exists_eq_left']
  decide +kernel

end Rule

end RepoContract
