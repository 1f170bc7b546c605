/-
# RepoContract.Proofs.Rule.Roles: what the check on roles reports

The check reads the values of the role hints of a file in one list, whose head is the role that the
others are set against. `SourceFile.KeepsRole` says without that list when a file is in order: all
the roles that it declares are one and the same, which the contract permits, and in strict mode it
declares one. `RoleFindings` says what is found in a file: without a role one violation or none, by
the mode, and otherwise one for each role that is not permitted, in the order of the lines, and then
one for the first role that differs from the one declared first, if any does.

`Rule.checkRoles_reports` puts both together: each listed file has its findings, and nothing is
found exactly when all of them are in order. As for every rule that reads hints, a language in which
a block opens and closes with nothing is not meant (`Delimiters.track`).
-/
import Mathlib.Data.Nat.Find
import RepoContract.Language.BuiltIn
import RepoContract.Proofs.Source
import RepoContract.Rule.BuiltIn

namespace RepoContract

set_option autoImplicit false

/-- A contract permits a role: it is canonical, and listed if any are. -/
def Contract.Permits (contract : Contract) (role : String) : Prop :=
  role ∈ canonicalRoles ∧ (contract.roles = [] ∨ role ∈ contract.roles)

theorem Contract.allowsRole_iff {contract : Contract} {role : String} :
    contract.allowsRole role = true ↔ contract.Permits role := by
  simp [allowsRole, Permits]

/-- The roles that a file declares are one and the same, which the contract permits, and in strict
mode there is one. -/
structure SourceFile.KeepsRole (source : SourceFile) (contract : Contract) : Prop where
  same : ∃ role, ∀ number value, source.Declares "role" number value →
    value = role ∧ contract.Permits value
  declared : contract.mode = .strict → ∃ number value, source.Declares "role" number value

namespace Rule

/-- What to say of two roles of one file. -/
def conflictMessage (first other : String) : String :=
  "conflicting role declarations: '" ++ first ++ "' and '" ++ other ++ "'"

/-- What the check on roles finds in a file. -/
inductive RoleFindings (contract : Contract) (source : SourceFile) : List Violation → Prop
  | undeclared (none : ∀ number role, ¬ source.Declares "role" number role) :
      RoleFindings contract source
        (if contract.mode = .strict then
          [.atLine source.path 1 "missing @aocs-role declaration"] else [])
  | declared {start : Nat} {first : String} {refused : List (Nat × String)}
      {conflict : Option (Nat × String)}
      (isFirst : source.Declares "role" start first)
      (noEarlier : ∀ number role, source.Declares "role" number role → start ≤ number)
      (ascending : refused.Pairwise fun earlier later => earlier.1 < later.1)
      (isRefused : ∀ number role, (number, role) ∈ refused ↔
        source.Declares "role" number role ∧ ¬ contract.Permits role)
      (isConflict : ∀ number role, conflict = some (number, role) ↔
        source.Declares "role" number role ∧ role ≠ first ∧
          ∀ earlier other, source.Declares "role" earlier other → earlier < number →
            other = first) :
      RoleFindings contract source
        (refused.map (fun (number, role) => .atLine source.path number (roleMessage role)) ++
          conflict.toList.map fun (number, role) =>
            .atLine source.path number (conflictMessage first role))

variable {contract : Contract} {source : SourceFile} {share : List Violation}

/-- **One file is told by its findings.** -/
theorem roleFindings_judgeRoles (contract : Contract) (source : SourceFile) :
    RoleFindings contract source (judgeRoles contract source) := by
  have declares (number : Nat) (role : String) :
      (number, role) ∈ source.valuesOf "role" ↔ source.Declares "role" number role :=
    SourceFile.mem_valuesOf_iff
  have ascending := source.pairwise_valuesOf "role"
  rw [judgeRoles]
  cases roles : source.valuesOf "role" with
  | nil =>
      rw [roles] at declares
      have none : ∀ number role, ¬ source.Declares "role" number role := by
        intro number role isDeclared
        exact List.not_mem_nil ((declares number role).2 isDeclared)
      have byMode : declaredRoles contract source.path [] = if contract.mode = .strict then
          [.atLine source.path 1 "missing @aocs-role declaration"] else [] := by
        cases isMode : contract.mode <;> simp [declaredRoles, Mode.isStrict, isMode]
      rw [byMode]
      exact .undeclared none
  | cons head more =>
      obtain ⟨start, first⟩ := head
      rw [roles] at declares ascending
      have after := (List.pairwise_cons.1 ascending).1
      let refused := ((start, first) :: more).filter fun (_, role) => !contract.allowsRole role
      let conflict := more.find? fun (_, role) => role ≠ first
      -- the first role does not differ from itself, so the search may begin with it
      have fromStart : conflict = ((start, first) :: more).find? fun (_, role) => role ≠ first := by
        simp [conflict]
      have told : declaredRoles contract source.path ((start, first) :: more) =
          refused.map (fun (number, role) => .atLine source.path number (roleMessage role)) ++
            conflict.toList.map fun (number, role) =>
              .atLine source.path number (conflictMessage first role) := by
        rw [declaredRoles, Option.toList_map]
        rfl
      rw [told]
      refine .declared ((declares start first).1 List.mem_cons_self) ?_ (ascending.filter _) ?_ ?_
      · intro number role isDeclared
        rcases List.mem_cons.1 ((declares number role).2 isDeclared) with same | later
        · cases same
          exact Nat.le_refl _
        · exact Nat.le_of_lt (after _ later)
      · intro number role
        rw [List.mem_filter, declares, ← Contract.allowsRole_iff]
        simp
      · intro number role
        rw [fromStart, find?_eq_some_of_ascending ascending, declares]
        simp [declares]

/-- Nothing is found in a file exactly when it is in order. -/
theorem RoleFindings.eq_nil_iff (findings : RoleFindings contract source share) :
    share = [] ↔ source.KeepsRole contract := by
  cases findings with
  | undeclared none =>
      constructor
      · intro nothing
        refine ⟨⟨"", fun number value isDeclared => absurd isDeclared (none number value)⟩, ?_⟩
        intro isStrict
        rw [if_pos isStrict] at nothing
        contradiction
      · intro keeps
        refine if_neg fun isStrict => ?_
        obtain ⟨number, value, isDeclared⟩ := keeps.declared isStrict
        exact none number value isDeclared
  | @declared start first refused conflict isFirst noEarlier ascending isRefused isConflict =>
      rw [List.append_eq_nil_iff, List.map_eq_nil_iff, List.map_eq_nil_iff,
        Option.toList_eq_nil_iff]
      constructor
      · rintro ⟨rfl, rfl⟩
        refine ⟨⟨first, fun number value isDeclared => ⟨?_, ?_⟩⟩, fun _ => ⟨start, first, isFirst⟩⟩
        · -- of the lines with another role the first would be a conflict
          by_contra differs
          classical
          have differing : ∃ number role, source.Declares "role" number role ∧ role ≠ first :=
            ⟨number, value, isDeclared, differs⟩
          obtain ⟨role, isRole, isOther⟩ := Nat.find_spec differing
          have least : ∀ earlier other, source.Declares "role" earlier other →
              earlier < Nat.find differing → other = first := by
            intro earlier other isEarlier before
            by_contra isAnother
            exact Nat.find_min differing before ⟨other, isEarlier, isAnother⟩
          exact nomatch (isConflict _ role).2 ⟨isRole, isOther, least⟩
        · by_contra refusal
          exact List.not_mem_nil ((isRefused number value).2 ⟨isDeclared, refusal⟩)
      · rintro ⟨⟨role, same⟩, -⟩
        constructor
        · rw [List.eq_nil_iff_forall_not_mem]
          rintro ⟨number, value⟩ isIn
          obtain ⟨isDeclared, refusal⟩ := (isRefused number value).1 isIn
          exact refusal (same number value isDeclared).2
        · rw [Option.eq_none_iff_forall_ne_some]
          rintro ⟨number, value⟩ isThis
          obtain ⟨isDeclared, differs, -⟩ := (isConflict number value).1 isThis
          exact differs ((same number value isDeclared).1.trans (same start first isFirst).1.symm)

/-- **The check on roles reports what is wrong with the roles of each file**, and it reports nothing
exactly when every listed file that can be read keeps its role. -/
theorem checkRoles_reports (project : Project) :
    ∃ violations,
      (RuleTable.builtIn.universal.find? (·.id = "file-roles")).map (·.check project) =
        some (.found violations) ∧
      project.ReportsByFile (RoleFindings project.contract) violations ∧
      (violations = [] ↔ ∀ listed ∈ project.files.files, ∀ source, project.Opens listed source →
        source.KeepsRole project.contract) := by
  have reports : project.ReportsByFile (RoleFindings project.contract)
      (project.sources.flatMap (judgeRoles project.contract)) :=
    Project.reportsByFile_flatMap (roleFindings_judgeRoles project.contract)
  exact ⟨_, rfl, reports, reports.eq_nil_iff fun _ _ findings => findings.eq_nil_iff⟩

/-- A role that is not listed and one that is unknown come before the conflict, which is with the
first of them. -/
example :
    (judgeRoles { Contract.minimal ["python"] .lite with roles := ["state"] }
      ⟨Path.ofString "a.py", ⟨"python", ["py"], LanguageTable.numberSignComments, ""⟩,
        "# @aocs-role: state\n# @aocs-role: ui\n# @aocs-role: view\n".toList⟩).map
      (fun violation => violation.line) = [some 2, some 3, some 2] := by
  decide +kernel

end Rule

end RepoContract
