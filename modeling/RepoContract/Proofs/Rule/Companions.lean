/-
# RepoContract.Proofs.Rule.Companions: what the rules on companions report

Five rules ask for a hint in files that declare a role, each in the files of one language and unless
the contract waives it. They are one check with parameters, so what they find in a file is told once
(`CompanionFindings`): one violation, at the first line with the role, if the file is in the rule's
language, declares the role wherever it stands among other roles, and never gives the hint; nothing
otherwise. `Rule.companions_report` says this of each of the five by its id, for languages as in
`RepoContract.Proofs.Rule.Roles`.
-/
import RepoContract.Proofs.Rule.Scope
import RepoContract.Proofs.Selection
import RepoContract.Proofs.Source

namespace RepoContract.Rule

set_option autoImplicit false

/-- A rule on companions: its id, the language whose files it judges, the role and the hint that it
asks for there, and the contracts that waive it. -/
structure CompanionRule where
  id : String
  language : String
  role : String
  hint : String
  Waives : Contract → Prop

/-- State has an owner unless its ownership is shared, and services list their side effects unless
these are unrestricted. -/
def companionRules : List CompanionRule := [
  ⟨"js-state-owner", "javascript", "state", "owner", (·.stateOwnership = some .shared)⟩,
  ⟨"ts-state-owner", "typescript", "state", "owner", (·.stateOwnership = some .shared)⟩,
  ⟨"js-service-effects", "javascript", "service", "side-effects",
    (·.sideEffects = some .unrestricted)⟩,
  ⟨"ts-service-effects", "typescript", "service", "side-effects",
    (·.sideEffects = some .unrestricted)⟩,
  ⟨"py-service-effects", "python", "service", "side-effects",
    (·.sideEffects = some .unrestricted)⟩]

/-- A file in some language, up to the case of ASCII letters, that declares a role and never gives
a hint. -/
structure Lacks (language role hint : String) (source : SourceFile) : Prop where
  ofLanguage : sameAsciiCase source.language.name language = true
  declared : ∃ number, source.Declares "role" number role
  without : ∀ number value, ¬ source.Declares hint number value

/-- What a rule on companions finds in a file. -/
inductive CompanionFindings (language role hint : String) (source : SourceFile) :
    List Violation → Prop
  | lacking {number : Nat} (lacks : Lacks language role hint source)
      (isFirst : source.Declares "role" number role)
      (noEarlier : ∀ other, source.Declares "role" other role → number ≤ other) :
      CompanionFindings language role hint source
        [.atLine source.path number
          ("'" ++ role ++ "' role requires an @aocs-" ++ hint ++ " annotation")]
  | settled (inOrder : ¬ Lacks language role hint source) :
      CompanionFindings language role hint source []

variable {language : String} {companion : Companion} {contract : Contract}

/-- **One file is told by its findings.** -/
theorem companionFindings_judgeAsked (asked : companion.isAsked contract = true)
    (source : SourceFile) :
    CompanionFindings language companion.role companion.hint source
      (judgeAsked language companion contract source) := by
  have declares (number : Nat) (role : String) :
      (number, role) ∈ source.valuesOf "role" ↔ source.Declares "role" number role :=
    SourceFile.mem_valuesOf_iff
  have ascending := source.pairwise_valuesOf "role"
  rw [judgeAsked, asked, Bool.true_and]
  by_cases ofLanguage : sameAsciiCase source.language.name language = true
  · rw [if_pos ofLanguage, judgeCompanion]
    split
    · next found =>
        refine .settled fun lacks => ?_
        obtain ⟨number, isDeclared⟩ := lacks.declared
        have differs := List.find?_eq_none.1 found _ ((declares _ _).2 isDeclared)
        simp at differs
    · next number role found =>
        obtain ⟨isRole, passed, least⟩ := (find?_eq_some_of_ascending ascending _).1 found
        obtain rfl : role = companion.role := by simpa using passed
        have isFirst := (declares number companion.role).1 isRole
        cases hinted : source.hasHint companion.hint with
        | true =>
            refine .settled fun lacks => ?_
            obtain ⟨other, value, isGiven⟩ := SourceFile.hasHint_iff.1 hinted
            exact lacks.without other value isGiven
        | false =>
            have without : ∀ other value, ¬ source.Declares companion.hint other value := by
              intro other value isGiven
              have isHinted := SourceFile.hasHint_iff.2 ⟨other, value, isGiven⟩
              rw [hinted] at isHinted
              contradiction
            refine .lacking ⟨ofLanguage, ⟨number, isFirst⟩, without⟩ isFirst ?_
            intro other isDeclared
            by_contra earlier
            have failed := least _ ((declares other companion.role).2 isDeclared) (by omega)
            simp at failed
  · rw [if_neg ofLanguage]
    exact .settled fun lacks => ofLanguage lacks.ofLanguage

/-- A check on companions reports nothing if it is not asked for, and otherwise what is lacking in
each file. -/
theorem checkCompanion_reports (language : String) (companion : Companion) (project : Project) :
    ∃ violations, checkCompanion language companion project = .found violations ∧
      (companion.isAsked project.contract = false → violations = []) ∧
      (companion.isAsked project.contract = true →
        project.ReportsByFile (CompanionFindings language companion.role companion.hint)
          violations) := by
  refine ⟨_, checkCompanion_eq language companion project, ?_, ?_⟩
  · intro waived
    refine List.flatMap_eq_nil_iff.2 fun source _ => ?_
    rw [judgeAsked, waived]
    rfl
  · intro asked
    exact Project.reportsByFile_flatMap (companionFindings_judgeAsked asked)

/-- Each of the rules is a check on a companion. -/
theorem exists_companion {entry : CompanionRule} (isEntry : entry ∈ companionRules) :
    ∃ companion : Companion, companion.role = entry.role ∧ companion.hint = entry.hint ∧
      (∀ contract, entry.Waives contract ↔ companion.isAsked contract = false) ∧
      ∀ project, (RuleTable.builtIn.rules.find? (·.id = entry.id)).map (·.check project) =
        some (checkCompanion entry.language companion project) := by
  simp only [companionRules, List.mem_cons, List.not_mem_nil, or_false] at isEntry
  rcases isEntry with rfl | rfl | rfl | rfl | rfl
  · exact ⟨stateOwner, rfl, rfl, by simp [stateOwner], fun _ => rfl⟩
  · exact ⟨stateOwner, rfl, rfl, by simp [stateOwner], fun _ => rfl⟩
  · exact ⟨serviceEffects, rfl, rfl, by simp [serviceEffects], fun _ => rfl⟩
  · exact ⟨serviceEffects, rfl, rfl, by simp [serviceEffects], fun _ => rfl⟩
  · exact ⟨serviceEffects, rfl, rfl, by simp [serviceEffects], fun _ => rfl⟩

/-- **The rules on companions judge the files of their own language.** If the contract waives a
rule, it reports nothing; otherwise it reports each listed file that lacks the hint, in the order
listed, once, at its first line with the role. -/
theorem companions_report (project : Project) {entry : CompanionRule}
    (isEntry : entry ∈ companionRules) :
    ∃ violations,
      (RuleTable.builtIn.rules.find? (·.id = entry.id)).map (·.check project) =
        some (.found violations) ∧
      (entry.Waives project.contract → violations = []) ∧
      (¬ entry.Waives project.contract →
        project.ReportsByFile (CompanionFindings entry.language entry.role entry.hint)
          violations) := by
  obtain ⟨companion, isRole, isHint, waived, isRule⟩ := exists_companion isEntry
  obtain ⟨violations, checked, nothing, told⟩ :=
    checkCompanion_reports entry.language companion project
  rw [isRole, isHint] at told
  refine ⟨violations, (isRule project).trans (congrArg some checked), ?_, ?_⟩
  · intro waives
    exact nothing ((waived _).1 waives)
  · intro asked
    rw [waived, Bool.not_eq_false] at asked
    exact told asked

/-- A script that declares a second role, and one of another language with that role alone. -/
def lateState : Project :=
  ⟨⟨.ofEntries [("a.js", .ofText "// @aocs-role: ui\n// @aocs-role: state\n"),
      ("b.ts", .ofText "// @aocs-role: state\n")], []⟩,
    Path.ofString ".", Contract.minimal ["javascript"] .lite,
    ⟨Path.ofString ".", [Path.ofString "./a.js", Path.ofString "./b.ts"]⟩, .builtIn⟩

/-- The rule finds the role behind another one, and leaves the other language alone. -/
theorem companions_report_lateState :
    let found := [Violation.atLine (Path.ofString "a.js") 2
      "'state' role requires an @aocs-owner annotation"]
    (RuleTable.builtIn.rules.find? (·.id = "js-state-owner")).map (·.check lateState) =
        some (.found found) ∧
      lateState.ReportsByFile (CompanionFindings "javascript" "state" "owner") found := by
  intro found
  obtain ⟨violations, checked, -, told⟩ := companions_report lateState
    (List.mem_cons_self : ⟨"js-state-owner", "javascript", "state", "owner", _⟩ ∈ companionRules)
  have script : lateState.source? (Path.ofString "./a.js") = some ⟨Path.ofString "a.js",
      ⟨"javascript", ["js", "mjs", "cjs", "jsx"], LanguageTable.slashComments,
        LanguageTable.scriptExport⟩, "// @aocs-role: ui\n// @aocs-role: state\n".toList⟩ := by
    cbv
  have sibling : lateState.source? (Path.ofString "./b.ts") = some ⟨Path.ofString "b.ts",
      ⟨"typescript", ["ts", "tsx", "mts", "cts"], LanguageTable.slashComments,
        LanguageTable.scriptExport⟩, "// @aocs-role: state\n".toList⟩ := by
    cbv
  have same : checkCompanion "javascript" stateOwner lateState = .found found := by
    rw [checkCompanion, Project.sources, show lateState.files.files =
      [Path.ofString "./a.js", Path.ofString "./b.ts"] from rfl, List.filterMap_cons, script,
      List.filterMap_cons, sibling]
    decide +kernel
  have isFound : violations = found := by
    have both := checked.symm.trans (congrArg some same)
    simpa [Verdict.found] using both
  rw [isFound] at checked told
  exact ⟨checked, told (by decide)⟩

end RepoContract.Rule
