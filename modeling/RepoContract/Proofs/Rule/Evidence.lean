/-
# RepoContract.Proofs.Rule.Evidence: where reports point

Three passes number the lines of a file: the hints, the code lines and the numbered lines that both
start from, each paired with a mask that is made elsewhere. They stay in step. Each line has one of
two places (`SourceFile.xor_place`): its mask marks it, and then the hints under its number are what
is read from it and no code line has the number; or its mask does not, and then it is the code line
of its number and no hint has it.

So a violation that is reported at the line of a hint or of a code line points at a line that is
there, with what it is about (`SourceFile.Evidence`). The two violations that are about a file as a
whole point at its first line, also where the file has none. `Rule.reports_located` says this of
every rule that judges files, whatever project it is asked about, with languages whose blocks do not
open and close with nothing (`Delimiters.track`).
-/
import RepoContract.Proofs.Hint
import RepoContract.Proofs.Rule.Companions
import RepoContract.Proofs.Rule.Forbidden
import RepoContract.Proofs.Rule.Roles

namespace RepoContract

set_option autoImplicit false

namespace SourceFile

variable {source : SourceFile} {index number : Nat} {line : List Char} {key value : String}

/-! ## The place of a line -/

/-- The line at a place is read for a hint and not judged as code. -/
structure HintPlace (source : SourceFile) (index : Nat) (line : List Char) : Prop where
  marked : source.mask[index]? = some true
  isRead : ∀ hint, hint ∈ source.hints ∧ hint.line = index + 1 ↔
    Hint.ofLine? (source.language.comments.block.map (·.2)) (index + 1) line = some hint
  noCode : ∀ other, (index + 1, other) ∉ source.codeLines

/-- The line at a place is judged as code and not read for a hint. -/
structure CodePlace (source : SourceFile) (index : Nat) (line : List Char) : Prop where
  unmarked : source.mask[index]? = some false
  isJudged : ∀ other, (index + 1, other) ∈ source.codeLines ↔ other = line
  noHint : ∀ hint ∈ source.hints, hint.line ≠ index + 1

theorem hintPlace_of_marked (isLine : (Text.lines source.text)[index]? = some line)
    (marked : source.mask[index]? = some true) : source.HintPlace index line where
  marked := marked
  isRead hint := by
    constructor
    · rintro ⟨isHint, isHere⟩
      obtain ⟨place, other, isPlace, isOther, -, found⟩ := mem_hints_iff.1 isHint
      obtain rfl : place = index := by omega
      obtain rfl := Option.some.inj (isOther.symm.trans isLine)
      rwa [isHere] at found
    · intro found
      have isHere := line_of_ofLine? found
      rw [← isHere] at found
      exact ⟨mem_hints_iff.2 ⟨index, line, isHere, isLine, marked, found⟩, isHere⟩
  noCode other isCode := by
    obtain ⟨place, isPlace, -, unmarked⟩ := mem_codeLines_iff.1 isCode
    obtain rfl : place = index := by omega
    cases marked.symm.trans unmarked

theorem codePlace_of_unmarked (isLine : (Text.lines source.text)[index]? = some line)
    (unmarked : source.mask[index]? = some false) : source.CodePlace index line where
  unmarked := unmarked
  isJudged other := by
    constructor
    · intro isCode
      obtain ⟨place, isPlace, isOther, -⟩ := mem_codeLines_iff.1 isCode
      obtain rfl : place = index := by omega
      exact Option.some.inj (isOther.symm.trans isLine)
    · rintro rfl
      exact mem_codeLines_iff.2 ⟨index, rfl, isLine, unmarked⟩
  noHint hint isHint isHere := by
    obtain ⟨place, other, isPlace, -, marked, -⟩ := mem_hints_iff.1 isHint
    obtain rfl : place = index := by omega
    cases marked.symm.trans unmarked

/-- **Each line of a file is read for a hint or judged as code, and not both.** -/
theorem xor_place (isLine : (Text.lines source.text)[index]? = some line) :
    Xor (source.HintPlace index line) (source.CodePlace index line) := by
  have room : index < source.mask.length := by
    rw [mask, Delimiters.length_mask]
    exact (List.getElem?_eq_some_iff.1 isLine).1
  cases isMark : source.mask[index] with
  | true =>
      have marked : source.mask[index]? = some true := by
        rw [List.getElem?_eq_getElem room, isMark]
      refine .inl ⟨hintPlace_of_marked isLine marked, fun place => ?_⟩
      cases marked.symm.trans place.unmarked
  | false =>
      have unmarked : source.mask[index]? = some false := by
        rw [List.getElem?_eq_getElem room, isMark]
      refine .inr ⟨codePlace_of_unmarked isLine unmarked, fun place => ?_⟩
      cases unmarked.symm.trans place.marked

/-- No line is both that of a hint and a code line. -/
theorem line_ne_of_mem {hint : Hint} {numbered : Nat × List Char} (isHint : hint ∈ source.hints)
    (isCode : numbered ∈ source.codeLines) : hint.line ≠ numbered.1 := by
  obtain ⟨index, line, isHere, isLine, marked, -⟩ := mem_hints_iff.1 isHint
  intro same
  refine (hintPlace_of_marked isLine marked).noCode numbered.2 ?_
  rw [← isHere, same]
  exact isCode

/-! ## Lines that show something -/

/-- The line of some number is marked as a comment and holds the sign of a hint. -/
def HintLine (source : SourceFile) (number : Nat) : Prop :=
  ∃ index line, number = index + 1 ∧ (Text.lines source.text)[index]? = some line ∧
    source.mask[index]? = some true ∧ Hint.sign <:+: line

/-- The line of some number is not marked as a comment. -/
def CodeLine (source : SourceFile) (number : Nat) : Prop :=
  ∃ index line, number = index + 1 ∧ (Text.lines source.text)[index]? = some line ∧
    source.mask[index]? = some false

theorem hintLine_of_mem_hints {hint : Hint} (isHint : hint ∈ source.hints) :
    source.HintLine hint.line := by
  obtain ⟨index, line, isNumber, isLine, marked, found⟩ := mem_hints_iff.1 isHint
  refine ⟨index, line, isNumber, isLine, marked, ?_⟩
  by_contra plain
  rw [Hint.ofLine?_of_plain plain] at found
  contradiction

theorem hintLine_of_declares (declares : source.Declares key number value) :
    source.HintLine number := by
  obtain ⟨-, index, line, isNumber, isLine, marked, found⟩ := declares
  have isHint : { line := number, key, value := some value } ∈ source.hints :=
    mem_hints_iff.2 ⟨index, line, isNumber, isLine, marked, found⟩
  exact hintLine_of_mem_hints isHint

theorem codeLine_of_mem_codeLines (isCode : (number, line) ∈ source.codeLines) :
    source.CodeLine number := by
  obtain ⟨index, isNumber, isLine, unmarked⟩ := mem_codeLines_iff.1 isCode
  exact ⟨index, line, isNumber, isLine, unmarked⟩

/-- What a violation of some rule shows at its line, by what it says. -/
inductive Evidence (source : SourceFile) : String → Violation → Prop
  | missingRole :
      Evidence source "file-roles" (.atLine source.path 1 "missing @aocs-role declaration")
  | refusedRole {number : Nat} {role : String} (shown : source.HintLine number) :
      Evidence source "file-roles" (.atLine source.path number (Rule.roleMessage role))
  | conflictingRoles {number : Nat} {first other : String} (shown : source.HintLine number) :
      Evidence source "file-roles" (.atLine source.path number (Rule.conflictMessage first other))
  | malformedHint {hint : Hint} {problem : HintProblem} (shown : source.HintLine hint.line) :
      Evidence source "inline-hints"
        (.atLine source.path hint.line (Rule.hintMessage hint problem))
  | forbiddenPattern {number : Nat} {entry : ForbiddenPattern} (shown : source.CodeLine number) :
      Evidence source "forbidden-patterns" (.atLine source.path number entry.message)
  | missingManifest :
      Evidence source "module-manifest"
        (.atLine source.path 1 "exports public items but declares no @aocs-module manifest")
  | missingCompanion {number : Nat} {entry : Rule.CompanionRule}
      (isEntry : entry ∈ Rule.companionRules) (shown : source.HintLine number) :
      Evidence source entry.id (.atLine source.path number
        ("'" ++ entry.role ++ "' role requires an @aocs-" ++ entry.hint ++ " annotation"))

/-- The number of a line that a report may point at: one of the file's, or the first. -/
def IsLineNumber (source : SourceFile) (number : Nat) : Prop :=
  1 ≤ number ∧ number ≤ max 1 (Text.lines source.text).length

theorem isLineNumber_one (source : SourceFile) : source.IsLineNumber 1 :=
  ⟨Nat.le_refl 1, Nat.le_max_left 1 _⟩

theorem isLineNumber_of_line (isNumber : number = index + 1)
    (isLine : (Text.lines source.text)[index]? = some line) : source.IsLineNumber number := by
  have room := (List.getElem?_eq_some_iff.1 isLine).1
  rw [IsLineNumber]
  omega

theorem HintLine.isLineNumber (shown : source.HintLine number) : source.IsLineNumber number := by
  obtain ⟨_, _, isNumber, isLine, -⟩ := shown
  exact isLineNumber_of_line isNumber isLine

theorem CodeLine.isLineNumber (shown : source.CodeLine number) : source.IsLineNumber number := by
  obtain ⟨_, _, isNumber, isLine, -⟩ := shown
  exact isLineNumber_of_line isNumber isLine

/-- What shows something points at a line of its file. -/
theorem Evidence.location {id : String} {violation : Violation}
    (evidence : source.Evidence id violation) :
    violation.file = some source.path ∧
      ∃ number, violation.line = some number ∧ source.IsLineNumber number := by
  cases evidence with
  | missingRole | missingManifest => exact ⟨rfl, 1, rfl, source.isLineNumber_one⟩
  | refusedRole shown | conflictingRoles shown | malformedHint shown | forbiddenPattern shown
  | missingCompanion _ shown => exact ⟨rfl, _, rfl, shown.isLineNumber⟩

end SourceFile

namespace Rule

/-! ## Judging one file -/

variable {source : SourceFile} {violation : Violation} {contract : Contract}

theorem evidence_judgeRoles (isFound : violation ∈ judgeRoles contract source) :
    source.Evidence "file-roles" violation := by
  have findings := roleFindings_judgeRoles contract source
  generalize judgeRoles contract source = share at findings isFound
  cases findings with
  | undeclared none =>
      split at isFound
      · rw [List.mem_singleton.1 isFound]
        exact .missingRole
      · contradiction
  | declared isFirst noEarlier ascending isRefused isConflict =>
      rcases List.mem_append.1 isFound with inRefused | inConflict
      · obtain ⟨⟨number, role⟩, isHere, rfl⟩ := List.mem_map.1 inRefused
        exact .refusedRole (SourceFile.hintLine_of_declares ((isRefused number role).1 isHere).1)
      · obtain ⟨⟨number, role⟩, isHere, rfl⟩ := List.mem_map.1 inConflict
        have told := (isConflict number role).1 (Option.mem_toList.1 isHere)
        exact .conflictingRoles (SourceFile.hintLine_of_declares told.1)

theorem evidence_judgeHints (isFound : violation ∈ judgeHints contract source) :
    source.Evidence "inline-hints" violation := by
  obtain ⟨hint, isHint, isProblem⟩ := List.mem_filterMap.1 isFound
  obtain ⟨problem, -, rfl⟩ := Option.map_eq_some_iff.1 isProblem
  exact .malformedHint (SourceFile.hintLine_of_mem_hints isHint)

theorem evidence_judgeForbidden (isFound : violation ∈ judgeForbidden contract source) :
    source.Evidence "forbidden-patterns" violation := by
  obtain ⟨⟨number, line⟩, isCode, inLine⟩ := List.mem_flatMap.1 isFound
  obtain ⟨entry, -, rfl⟩ := List.mem_map.1 inLine
  exact .forbiddenPattern (SourceFile.codeLine_of_mem_codeLines isCode)

theorem evidence_judgeBy {patternOf : SourceFile → Except Fault (List Char → Bool)}
    (isFound : violation ∈ judgeBy patternOf source) :
    source.Evidence "module-manifest" violation := by
  have findings := manifestFindings_judgeBy patternOf source
  generalize judgeBy patternOf source = share at findings isFound
  cases findings with
  | lacking lacks =>
      rw [List.mem_singleton.1 isFound]
      exact .missingManifest
  | settled inOrder => contradiction

theorem evidence_judgeAsked {language : String} {companion : Companion} {entry : CompanionRule}
    (isEntry : entry ∈ companionRules) (isRole : companion.role = entry.role)
    (isHint : companion.hint = entry.hint)
    (isFound : violation ∈ judgeAsked language companion contract source) :
    source.Evidence entry.id violation := by
  cases asked : companion.isAsked contract with
  | false =>
      rw [judgeAsked, asked] at isFound
      contradiction
  | true =>
      have findings : CompanionFindings language companion.role companion.hint source
          (judgeAsked language companion contract source) :=
        companionFindings_judgeAsked asked source
      generalize judgeAsked language companion contract source = share at findings isFound
      cases findings with
      | lacking _ isFirst _ =>
          rw [List.mem_singleton.1 isFound, isRole, isHint]
          exact .missingCompanion isEntry (SourceFile.hintLine_of_declares isFirst)
      | settled inOrder => contradiction

/-! ## Judging a project -/

/-- Each companion that a rule asks for is that of an entry with its id. -/
theorem exists_entry : ∀ named ∈ RuleTable.companions, ∃ entry ∈ companionRules,
    entry.id = named.1 ∧ entry.role = named.2.2.role ∧ entry.hint = named.2.2.hint := by
  decide

/-- Something was found in the sources one by one, with evidence, and nothing else. -/
def Evidenced (id : String) (project : Project) (outcome : Outcome) : Prop :=
  ∃ judge : SourceFile → List Violation,
    outcome = { violations := project.sources.flatMap judge } ∧
      ∀ source, ∀ violation ∈ judge source, source.Evidence id violation

variable {compile : Pattern.Compiler} {id : String} {project : Project} {outcome : Outcome}

theorem evidenced_of_found {check : Project → Verdict} {judge : SourceFile → List Violation}
    (found : check project = .found (project.sources.flatMap judge))
    (told : ∀ source, ∀ violation ∈ judge source, source.Evidence id violation)
    (completes : check project = .completed outcome) : Evidenced id project outcome :=
  ⟨judge, (Verdict.completed.inj (found.symm.trans completes)).symm, told⟩

theorem evidenced_checkManifests (completes : checkManifests compile project = .completed outcome) :
    Evidenced "module-manifest" project outcome := by
  cases isMode : project.contract.mode with
  | lite =>
      let nothing (_ : SourceFile) : List Violation := []
      have found : checkManifests compile project = .found (project.sources.flatMap nothing) := by
        rw [checkManifests, isMode, List.flatMap_eq_nil_iff.2 fun _ _ => rfl]
        rfl
      exact evidenced_of_found found (fun _ => List.forall_mem_nil _) completes
  | strict =>
      have told := checkManifests_of_strict compile isMode
      rcases manifestsBy_cases (project.patternInForce compile) project.sources with
        ⟨_, _, _, fault, -, -, -, ended⟩ | ⟨-, ended⟩
      · rw [ended] at told
        cases told.symm.trans completes
      · rw [ended] at told
        exact evidenced_of_found told (fun _ _ isFound => evidence_judgeBy isFound) completes

/-- What a rule that judges files finds has evidence. -/
theorem evidenced_of_mem {rule : Rule} (isRule : rule ∈ (RuleTable.builtInWith compile).rules)
    (isNamed : rule.id ∈ "module-manifest" :: perFileIds)
    (completes : rule.check project = .completed outcome) : Evidenced rule.id project outcome := by
  cases RuleTable.builtIn_of_mem isRule with
  | contractPresent | contractSchema | readme => exact absurd isNamed (by decide)
  | roles => exact evidenced_of_found rfl (fun _ _ => evidence_judgeRoles) completes
  | hints => exact evidenced_of_found rfl (fun _ _ => evidence_judgeHints) completes
  | forbidden =>
      exact evidenced_of_found (checkForbidden_eq project) (fun _ _ => evidence_judgeForbidden)
        completes
  | manifests => exact evidenced_checkManifests completes
  | companion isCompanion =>
      obtain ⟨entry, isEntry, rfl, isRole, isHint⟩ := exists_entry _ isCompanion
      exact evidenced_of_found (checkCompanion_eq _ _ project)
        (fun _ _ => evidence_judgeAsked isEntry isRole.symm isHint.symm) completes

/-- A violation of some rule is under the path of a listed file that was read and classified, and
it points at a line of that file, or at the first, with the evidence for it. -/
def Located (id : String) (project : Project) (violation : Violation) : Prop :=
  ∃ listed ∈ project.files.files, ∃ source number, project.Opens listed source ∧
    violation.file = some (project.files.relative listed) ∧ violation.line = some number ∧
    source.IsLineNumber number ∧ source.Evidence id violation

/-- **What is reported exists and shows what it is about.** In a file no hint and code line have the
same number, and each line is read for a hint or judged as code, and not both. Whatever project they
are asked about and whatever compiles the export patterns, the rules that judge files warn of
nothing, and each violation that they report is located, with its evidence. -/
theorem reports_located :
    (∀ source : SourceFile,
      (∀ hint ∈ source.hints, ∀ numbered ∈ source.codeLines, hint.line ≠ numbered.1) ∧
      ∀ index line, (Text.lines source.text)[index]? = some line →
        Xor (source.HintPlace index line) (source.CodePlace index line)) ∧
    ∀ compile, ∀ rule ∈ (RuleTable.builtInWith compile).rules,
      rule.id ∈ "module-manifest" :: perFileIds →
      ∀ (project : Project) (outcome : Outcome), rule.check project = .completed outcome →
        outcome.warnings = [] ∧
          ∀ violation ∈ outcome.violations, Located rule.id project violation := by
  refine ⟨fun source => ⟨?_, fun _ _ => SourceFile.xor_place⟩, ?_⟩
  · intro hint isHint numbered isCode
    exact SourceFile.line_ne_of_mem isHint isCode
  · intro compile rule isRule isNamed project outcome completes
    obtain ⟨judge, rfl, told⟩ := evidenced_of_mem isRule isNamed completes
    refine ⟨rfl, fun violation isFound => ?_⟩
    obtain ⟨source, isSource, inSource⟩ := List.mem_flatMap.1 isFound
    obtain ⟨listed, isListed, opens⟩ := Project.mem_sources_iff.1 isSource
    have evidence := told source violation inSource
    obtain ⟨isFile, number, isNumber, inside⟩ := evidence.location
    rw [opens.path] at isFile
    exact ⟨listed, isListed, source, number, opens, isFile, isNumber, inside, evidence⟩

/-- A script with a role and a hint that no rule knows, and one without any line. -/
def hinted : Project :=
  scripted [("a.js", "// @aocs-role: ui\n// @aocs-rule: x\nexport let a;"), ("b.js", "")] []

/-- The unknown hint is reported at its line, which is no code line, and the role that is missing at
the first line of a file that has none. -/
theorem reports_located_hinted :
    let unknown := Violation.atLine (Path.ofString "a.js") 2 "unknown hint key '@aocs-rule'"
    let missing := Violation.atLine (Path.ofString "b.js") 1 "missing @aocs-role declaration"
    (perFile judgeHints hinted = .found [unknown] ∧ Located "inline-hints" hinted unknown) ∧
      (perFile judgeRoles hinted = .found [missing] ∧ Located "file-roles" hinted missing) ∧
      ∃ source ∈ hinted.sources, (Text.lines source.text)[1]? = some "// @aocs-rule: x".toList ∧
        ¬ source.CodePlace 1 "// @aocs-rule: x".toList := by
  intro unknown missing
  let javascript : Language :=
    ⟨"javascript", ["js", "mjs", "cjs", "jsx"], LanguageTable.slashComments,
      LanguageTable.scriptExport⟩
  let script : SourceFile := ⟨Path.ofString "a.js", javascript,
    "// @aocs-role: ui\n// @aocs-rule: x\nexport let a;".toList⟩
  have sources : hinted.sources = [script, ⟨Path.ofString "b.js", javascript, []⟩] := by
    cbv
  have hints : perFile judgeHints hinted = .found [unknown] := by
    rw [perFile, sources]
    decide +kernel
  have roles : perFile judgeRoles hinted = .found [missing] := by
    rw [perFile, sources]
    decide +kernel
  obtain ⟨places, located⟩ := reports_located
  have isRule (place : Nat) {rule : Rule}
      (isThere : RuleTable.builtIn.rules[place]? = some rule) : rule ∈ RuleTable.builtIn.rules :=
    List.mem_of_getElem? isThere
  have isLine : (Text.lines script.text)[1]? = some "// @aocs-rule: x".toList := by
    decide +kernel
  refine ⟨⟨hints, ?_⟩, ⟨roles, ?_⟩, script, ?_, isLine, ?_⟩
  · exact (located Pattern.compile _ (isRule 3 rfl) (by decide) hinted _ hints).2 _
      List.mem_cons_self
  · exact (located Pattern.compile _ (isRule 2 rfl) (by decide) hinted _ roles).2 _
      List.mem_cons_self
  · rw [sources]
    exact List.mem_cons_self
  · have marked : script.mask[1]? = some true := by decide +kernel
    rcases (places script).2 1 _ isLine with ⟨-, noCode⟩ | ⟨isCode, -⟩
    · exact noCode
    · cases marked.symm.trans isCode.unmarked

end Rule

end RepoContract
