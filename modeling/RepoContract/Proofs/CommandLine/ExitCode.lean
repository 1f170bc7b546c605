/-
# RepoContract.Proofs.CommandLine.ExitCode: what decides the exit code of a validation

The exit code of a validation should be decided by its findings: zero when no record failed, one
when some did. Verbosity, silence, colour and the notice about fixes leave it alone. The format does
not: a document has no place for a path that is not text, so a report on a file with such a name
cannot be written as one, and the run ends with the code of failures of its own. As a text the same
report shows the path with replacement characters.

So the codes of two validations that differ in how they render differ exactly when one of them is
asked for a document that cannot be written and the other for a text (`runValidate_exitCode`).
-/
import RepoContract.CommandLine.Run
import RepoContract.Proofs.Run.Noninterference
import RepoContract.Proofs.Run.Sources
import RepoContract.Proofs.Summary.Document
import RepoContract.Proofs.Tree.Edit

namespace RepoContract.CommandLine

set_option autoImplicit false

variable (world : World) (terminal : Bool) (invocation : Invocation)
  (arguments : ValidateArguments)

/-- What a validation finds. Of the arguments it takes the path and the globs, and nothing that says
how to render. -/
def findings : Summary :=
  world.validate ((world.canonical arguments.path).toOption.getD arguments.path)
    arguments.excludes .builtIn

/-- The findings are to be written as a document, and cannot be. -/
def Unwritable : Prop :=
  arguments.format = .json ∧ (findings world arguments).NamesBytes

instance : Decidable (Unwritable world arguments) :=
  inferInstanceAs (Decidable (_ ∧ _))

/-- A report as text is always written, and one as a document unless a path is no text. -/
theorem exists_fault_iff (colored : Bool) :
    (∃ fault, report arguments.format colored invocation.verbosity (findings world arguments) =
      .error fault) ↔ Unwritable world arguments := by
  unfold Unwritable
  cases arguments.format with
  | text => simp [report]
  | json => simp [report, Summary.renderDocument_eq_error_iff]

theorem exitCode_of_unwritable (unwritable : Unwritable world arguments) :
    (runValidate world terminal invocation arguments).exitCode = failureCode := by
  obtain ⟨fault, fails⟩ := (exists_fault_iff world invocation arguments
    (invocation.color.isOn terminal)).2 unwritable
  rw [findings] at fails
  rw [runValidate]
  simp only [fails]

theorem exitCode_of_writable (writable : ¬Unwritable world arguments) :
    (runValidate world terminal invocation arguments).exitCode =
      (findings world arguments).exitCode := by
  rw [← exists_fault_iff world invocation arguments (invocation.color.isOn terminal),
    not_exists] at writable
  rw [findings] at writable ⊢
  rw [runValidate]
  split
  · rfl
  · next fault fails => exact absurd fails (writable fault)

/-- A report that can be written leaves the code to the findings. -/
theorem exitCode_eq :
    (runValidate world terminal invocation arguments).exitCode =
      if Unwritable world arguments then failureCode else (findings world arguments).exitCode := by
  split
  · next unwritable => exact exitCode_of_unwritable world terminal invocation arguments unwritable
  · next writable => exact exitCode_of_writable world terminal invocation arguments writable

/-- The code of a run's own failure is none that findings have. -/
theorem exitCode_ne_failureCode (summary : Summary) : summary.exitCode ≠ failureCode := by
  rw [Summary.exitCode]
  split <;> decide

/-- **What a validation exits with.** The findings decide, unless they are to be written as a
document and cannot be. So of two validations that may differ in format, colour, verbosity, silence
and fixes, both exit with the same code exactly when they are asked for the same format or when
every path in the findings is text. -/
theorem runValidate_exitCode (otherTerminal : Bool) (other : Invocation) (format : Format)
    (fix : Bool) :
    (runValidate world terminal invocation arguments).exitCode =
      (if Unwritable world arguments then 2
        else if (findings world arguments).failed = 0 then 0 else 1) ∧
    ((runValidate world terminal invocation arguments).exitCode =
        (runValidate world otherTerminal other { arguments with format, fix }).exitCode ↔
      arguments.format = format ∨ ¬(findings world arguments).NamesBytes) := by
  constructor
  · rw [exitCode_eq, Summary.exitCode, Summary.isSuccess]
    simp only [beq_iff_eq, failureCode]
  · -- how to render plays no part in the findings
    have sameFindings : findings world { arguments with format, fix } = findings world arguments :=
      rfl
    by_cases namesBytes : (findings world arguments).NamesBytes
    · have own : Unwritable world arguments ↔ arguments.format = .json := and_iff_left namesBytes
      have others : Unwritable world { arguments with format, fix } ↔ format = .json :=
        and_iff_left namesBytes
      have apart := exitCode_ne_failureCode (findings world arguments)
      simp only [exitCode_eq, own, others, sameFindings, namesBytes]
      cases arguments.format <;> cases format <;> simp [apart, apart.symm]
    · have writable (given : ValidateArguments)
          (same : findings world given = findings world arguments) :
          ¬Unwritable world given := fun unwritable => namesBytes (same ▸ unwritable.2)
      rw [exitCode_of_writable _ _ _ _ (writable arguments rfl),
        exitCode_of_writable _ _ _ _ (writable _ sameFindings), sameFindings]
      exact iff_of_true rfl (.inr namesBytes)

/-! ## A script whose name is no text -/

open World

/-- The name of a script that is no text. -/
def bytesName : Name :=
  0xFF :: (Path.ofString ".js").bytes

/-- A strict project with a script that declares no role and whose name is no text. -/
def unnamedProject : World :=
  ⟨.dir [((Path.ofString contractFile).bytes, .ofText scriptContract.render),
    (bytesName, .ofText "let x = 1;\n")], []⟩

/-- The arguments that validate the current directory. -/
def validateHere (format : Format) : ValidateArguments :=
  ⟨Path.ofString ".", format, [], false⟩

/-- The invocation with nothing else on the command line. -/
def plainly (arguments : ValidateArguments) : Invocation :=
  ⟨0, false, .auto, .validate arguments⟩

/-- What is found there: the script has no role, and its name is said in the record. -/
theorem findings_unnamedProject (format : Format) :
    (findings unnamedProject (validateHere format)).NamesBytes ∧
      (findings unnamedProject (validateHere format)).failed ≠ 0 := by
  have isRoot : unnamedProject.canonical (Path.ofString ".") = .ok (Path.ofString "/") := by cbv
  have opens : unnamedProject.OpensTo (Path.ofString "/") _ := ⟨[], by cbv, rfl⟩
  have leads := opens.node_eq (by decide +kernel)
  have loads : (unnamedProject.loadContract (Path.ofString "/")).contract =
      some scriptContract := by
    have isEntry : Path.IsEntryName (Path.ofString contractFile).bytes := by decide +kernel
    rw [loadContract_of_read (opens.read isEntry rfl) (Text.Utf8.decode?_encode _)]
    exact loads_scriptContract _
  obtain ⟨record, isRecord, -, isError, holds⟩ := record_of_judges loads (List.forall_mem_nil _)
    (List.mem_append_left _ (List.mem_of_getElem? (i := 2) rfl))
    (Rule.judges_roles "File role declarations" .error)
  have isFound : ∃ violation ∈
      (unnamedProject.judgedSources (Path.ofString "/") scriptContract []).flatMap
        (Rule.judgeRoles scriptContract), violation.file = some (.ofNames [bytesName]) := by
    rw [judgedSources_of_node scriptContract (List.forall_mem_nil _) (by decide +kernel) leads]
    decide +kernel
  have notText : ¬(Path.ofNames [bytesName]).IsText := Path.text?_eq_none_iff.1 (by decide +kernel)
  obtain ⟨violation, isFound, inFile⟩ := isFound
  rw [← holds] at isFound
  have run : findings unnamedProject (validateHere format) =
      unnamedProject.validate (Path.ofString "/") [] .builtIn := by
    rw [findings]
    show unnamedProject.validate
      ((unnamedProject.canonical (Path.ofString ".")).toOption.getD (Path.ofString ".")) [] .builtIn
        = _
    rw [isRoot]
    rfl
  rw [run]
  refine ⟨⟨record, isRecord, violation, isFound, _, inFile, notText⟩, ?_⟩
  have tallied := (validate_reports unnamedProject (Path.ofString "/") [] .builtIn).1
  have fails : (unnamedProject.validate (Path.ofString "/") [] .builtIn).exitCode = 1 :=
    tallied.failure.2 ⟨record, isRecord, isError, List.ne_nil_of_mem isFound⟩
  have some := (Summary.exitCode_eq_one_iff _).1 fails
  omega

/-- **The format changes the exit code**: what is found there is a failure, and as a document it
cannot be written. -/
theorem exitCode_unnamedProject :
    (run unnamedProject false (plainly (validateHere .text))).exitCode = 1 ∧
    (run unnamedProject false (plainly (validateHere .json))).exitCode = 2 := by
  have asText : ¬Unwritable unnamedProject (validateHere .text) := fun unwritable =>
    nomatch unwritable.1
  have asDocument : Unwritable unnamedProject (validateHere .json) :=
    ⟨rfl, (findings_unnamedProject .json).1⟩
  constructor
  · refine (exitCode_of_writable _ false (plainly (validateHere .text)) _ asText).trans ?_
    have some := Nat.pos_of_ne_zero (findings_unnamedProject .text).2
    exact (Summary.exitCode_eq_one_iff _).2 some
  · exact exitCode_of_unwritable _ false (plainly (validateHere .json)) _ asDocument

end RepoContract.CommandLine
