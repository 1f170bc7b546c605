/-
# RepoContract.Proofs.Rule.Repetition: how often an offence is reported

The check for forbidden patterns has a finding for each place of an id among the forbidden ones, and
neither the schema nor the check looks for repetitions there. So the violations that report one
offence are counted: on a line there is one for each time that the id is forbidden
(`Rule.countP_judgeLine`), in a file none are added to these, as each line is read once
(`Rule.countP_judgeForbidden`), and files add up where they look alike from the root
(`Rule.countP_checkForbidden`). The files of a scan never do (`World.nodup_relative`).

`Rule.eval_twice` is a contract which loads and a scan whose one offence is reported twice.
-/
import Mathlib.Algebra.BigOperators.Group.List.Basic
import Mathlib.Algebra.GroupWithZero.Nat
import RepoContract.Proofs.Rule.Forbidden

namespace RepoContract

set_option autoImplicit false

/-! ## Sums of what counts -/

/-- A sum of one amount for each item that holds. -/
theorem sum_map_ite {α : Type} (items : List α) (holds : α → Prop) [DecidablePred holds]
    (amount : Nat) :
    (items.map fun item => if holds item then amount else 0).sum =
      items.countP (fun item => holds item) * amount := by
  rw [List.sum_map_ite, List.countP_eq_length_filter]
  simp

/-- A sum over items with ascending keys, of which those of one key count if they hold. -/
theorem sum_map_of_ascending {α : Type} {items : List (Nat × α)}
    (ascending : items.Pairwise fun earlier later => earlier.1 < later.1) (key : Nat)
    (holds : α → Prop) [DecidablePred holds] (amount : Nat) :
    (items.map fun item => if item.1 = key ∧ holds item.2 then amount else 0).sum =
      if ∃ item ∈ items, item.1 = key ∧ holds item.2 then amount else 0 := by
  induction ascending with
  | nil => simp
  | @cons first rest before _ ih =>
      rw [List.map_cons, List.sum_cons, ih]
      by_cases here : first.1 = key ∧ holds first.2
      · -- no later item has the key of the first
        have none : ¬ ∃ item ∈ rest, item.1 = key ∧ holds item.2 := by
          rintro ⟨item, isItem, same, -⟩
          exact absurd (before item isItem) (by rw [here.1, same]; exact Nat.lt_irrefl key)
        rw [if_pos here, if_neg none, if_pos ⟨first, List.mem_cons_self, here⟩, Nat.add_zero]
      · rw [if_neg here, Nat.zero_add]
        refine if_congr ?_ rfl rfl
        simp only [List.mem_cons, or_and_right, exists_or, exists_eq_left, here, false_or]

/-! ## Lines and files -/

namespace Rule

/-- What an id comes to names that id, at the line and in the file looked at, if it fires. -/
theorem names_offence?_iff {contract : Contract} {source : SourceFile} {number lineNumber : Nat}
    {line : List Char} {other id : String} {file : Path} :
    (∃ violation ∈ offence? contract source number line other,
        violation.Names file lineNumber id) ↔
      other = id ∧ number = lineNumber ∧ source.path = file ∧ Fires contract source line id := by
  constructor
  · rintro ⟨violation, found, names⟩
    obtain ⟨notAllowed, entry, isEntry, fires, rfl⟩ := offence?_eq_some_iff.1 found
    have own : (Violation.atLine source.path number entry.message).Names source.path number other :=
      ⟨entry, isEntry, rfl⟩
    obtain ⟨rfl, rfl, rfl⟩ := own.unique names
    exact ⟨rfl, rfl, rfl, notAllowed, entry, isEntry, fires⟩
  · rintro ⟨rfl, rfl, rfl, notAllowed, entry, isEntry, fires⟩
    exact ⟨_, offence?_eq_some_iff.2 ⟨notAllowed, entry, isEntry, fires, rfl⟩, entry, isEntry, rfl⟩

/-- On one line an offence is reported as often as its id is forbidden. -/
theorem countP_judgeLine (contract : Contract) (source : SourceFile) (number : Nat)
    (line : List Char) (file : Path) (lineNumber : Nat) (id : String) :
    (judgeLine (enforcedEntries contract) source number line).countP
        (fun violation => violation.Names file lineNumber id) =
      if number = lineNumber ∧ source.path = file ∧ Fires contract source line id then
        contract.forbiddenPatterns.count id
      else 0 := by
  have isReported (other : String) :
      (((offence? contract source number line other).map fun violation =>
          decide (violation.Names file lineNumber id)).getD false) = true ↔
        other = id ∧ number = lineNumber ∧ source.path = file ∧ Fires contract source line id := by
    rw [← names_offence?_iff]
    cases offence? contract source number line other <;> simp
  rw [judgeLine_eq, List.countP_filterMap]
  split_ifs with here
  · refine List.countP_congr fun other _ => (isReported other).trans ?_
    simp [here]
  · refine List.countP_eq_zero.2 fun other _ reported => here ((isReported other).1 reported).2

/-- In one file an offence is reported as often as its id is forbidden. -/
theorem countP_judgeForbidden (contract : Contract) (source : SourceFile) (file : Path)
    (lineNumber : Nat) (id : String) :
    (judgeForbidden contract source).countP
        (fun violation => violation.Names file lineNumber id) =
      if ∃ numbered ∈ source.codeLines,
          numbered.1 = lineNumber ∧ source.path = file ∧ Fires contract source numbered.2 id then
        contract.forbiddenPatterns.count id
      else 0 := by
  rw [judgeForbidden, List.countP_flatMap]
  simp only [Function.comp_def, countP_judgeLine]
  exact sum_map_of_ascending source.pairwise_codeLines lineNumber
    (fun line => source.path = file ∧ Fires contract source line id) _

end Rule

/-- The files of a scan look different from the root. -/
theorem World.nodup_relative {world : World} {root : Path} {languages : LanguageTable}
    {declared excludes : List String} {list : FileList} (proper : world.root.isProper = true)
    (lists : world.scan root languages declared excludes = .ok list) :
    (list.files.map list.relative).Nodup := by
  obtain ⟨found, -, ⟨-, rfl⟩ | ⟨tree, leads, treeProper, rfl⟩⟩ := files_of_scan proper lists
  · exact .nil
  · rw [List.map_map, List.Nodup, List.pairwise_map]
    refine (Node.nodup_files treeProper).imp_of_mem fun {first second} isFirst isSecond differ => ?_
    obtain ⟨⟨_, first⟩, -⟩ := (Node.mem_files_iff treeProper).1 isFirst
    obtain ⟨⟨_, second⟩, -⟩ := (Node.mem_files_iff treeProper).1 isSecond
    have filled := bytes_ne_nil_of_node leads
    have firstEntries := (Node.isProper_at? treeProper first).1
    have secondEntries := (Node.isProper_at? treeProper second).1
    rw [Function.comp_apply, Function.comp_apply, FileList.relative, FileList.relative,
      Path.relativeTo_descend filled firstEntries, Path.relativeTo_descend filled secondEntries]
    exact fun same => differ (Path.ofNames_injective firstEntries secondEntries same)

namespace Rule

/-- For one file listed, an offence is reported as often as its id is forbidden. -/
theorem countP_listed (project : Project) (listed file : Path) (line : Nat) (id : String) :
    ((project.source? listed).toList.flatMap (judgeForbidden project.contract)).countP
        (fun violation => violation.Names file line id) =
      if project.files.relative listed = file ∧ project.Offends listed line id then
        project.contract.forbiddenPatterns.count id
      else 0 := by
  by_cases forbidden : id ∈ project.contract.forbiddenPatterns
  · cases isSource : project.source? listed with
    | none =>
        have clean : ¬ project.Offends listed line id := by
          rw [Project.offends_iff, isSource]
          simp
        rw [if_neg fun both => clean both.2]
        rfl
    | some source =>
        obtain ⟨_, _, -, -, rfl⟩ := Project.source?_eq_some_iff.1 isSource
        rw [Option.toList_some, List.flatMap_singleton, countP_judgeForbidden]
        refine if_congr ?_ rfl rfl
        simp only [Project.offends_iff, isSource, forbidden, true_and, Option.mem_some_iff,
          exists_eq_left']
        constructor
        · rintro ⟨numbered, isCode, isLine, isFile, fires⟩
          exact ⟨isFile, numbered, isCode, isLine, fires⟩
        · rintro ⟨isFile, numbered, isCode, isLine, fires⟩
          exact ⟨numbered, isCode, isLine, isFile, fires⟩
  · -- an id that is not forbidden is counted nowhere
    have none : project.contract.forbiddenPatterns.count id = 0 := List.count_eq_zero.2 forbidden
    rw [none, ite_self]
    cases project.source? listed with
    | none => rfl
    | some source =>
        rw [Option.toList_some, List.flatMap_singleton, countP_judgeForbidden, none, ite_self]

/-- **How often each offence is reported.** As often as listed files that offend look alike from
the root, times as often as the id is forbidden. So it is reported at most once if the contract
forbids no id twice, on the files of a scan. -/
theorem countP_checkForbidden (project : Project) :
    ∃ violations, checkForbidden project = .found violations ∧
      (∀ file line id, violations.countP (fun violation => violation.Names file line id) =
        (project.files.files.countP fun listed =>
            project.files.relative listed = file ∧ project.Offends listed line id) *
          project.contract.forbiddenPatterns.count id) ∧
      (project.contract.forbiddenPatterns.Nodup → project.world.root.isProper = true →
        ∀ declared excludes,
          project.world.scan project.root project.languages declared excludes = .ok project.files →
          ∀ file line id,
            violations.countP (fun violation => violation.Names file line id) ≤ 1) := by
  refine ⟨_, (checkForbidden_eq project).trans
    (congrArg Verdict.found (Project.flatMap_sources ..)), ?_⟩
  have counted (file : Path) (line : Nat) (id : String) :
      (project.files.files.flatMap fun listed =>
          (project.source? listed).toList.flatMap (judgeForbidden project.contract)).countP
        (fun violation => violation.Names file line id) =
      (project.files.files.countP fun listed =>
          project.files.relative listed = file ∧ project.Offends listed line id) *
        project.contract.forbiddenPatterns.count id := by
    rw [List.countP_flatMap, ← sum_map_ite]
    exact congrArg List.sum (List.map_congr_left fun listed _ => countP_listed ..)
  refine ⟨counted, fun distinct proper declared excludes lists file line id => ?_⟩
  have once : (project.files.files.countP fun listed =>
      project.files.relative listed = file ∧ project.Offends listed line id) ≤ 1 := by
    have isOne := List.nodup_iff_count_le_one.1 (World.nodup_relative proper lists) file
    rw [List.count, List.countP_map] at isOne
    refine le_trans (List.countP_mono_left fun listed _ both => ?_) isOne
    exact beq_iff_eq.2 (of_decide_eq_true both).1
  rw [counted]
  exact Nat.mul_le_mul once (List.nodup_iff_count_le_one.1 distinct id)

/-- A contract that forbids one pattern twice, and a script that it is about. -/
def twiceForbidden : Project :=
  ⟨⟨.ofEntries [("a.js", .ofText "eval(x)\n")], []⟩, Path.ofString ".",
    { Contract.minimal ["javascript"] .lite with
      forbiddenPatterns := ["dynamic-eval", "dynamic-eval"] },
    ⟨Path.ofString ".", [Path.ofString "./a.js"]⟩, .builtIn⟩

/-- **One offence can be reported twice.** The contract loads from its text, the file is what a scan
lists, and both violations are about the same file, line and id. -/
theorem eval_twice :
    (Loaded.ofText (Path.ofString contractFile)
        twiceForbidden.contract.render.toList).contract = some twiceForbidden.contract ∧
      twiceForbidden.world.scan (Path.ofString ".") .builtIn ["javascript"] [] =
        .ok twiceForbidden.files ∧
      ∃ violation : Violation, violation.Names (Path.ofString "a.js") 1 "dynamic-eval" ∧
        checkForbidden twiceForbidden = .found [violation, violation] := by
  have admissible : twiceForbidden.contract.Admissible :=
    ⟨⟨'1', by decide, by decide⟩, by decide, by decide, by decide, by decide⟩
  have loads := (Contract.ofText_render.1 (Path.ofString contractFile) _ admissible).2
  have isSource : twiceForbidden.source? (Path.ofString "./a.js") = some ⟨Path.ofString "a.js",
      ⟨"javascript", ["js", "mjs", "cjs", "jsx"], LanguageTable.slashComments,
        LanguageTable.scriptExport⟩, "eval(x)\n".toList⟩ := by
    cbv
  have lists : twiceForbidden.world.scan (Path.ofString ".") .builtIn ["javascript"] [] =
      .ok twiceForbidden.files := by
    have usable : ∀ glob ∈ ([] : List String), Glob.isUsable glob = true := List.forall_mem_nil _
    obtain ⟨found, isFilter⟩ := Eligibility.exists_filter_of_usable
      (LanguageTable.builtIn.extensionsFor ["javascript"]) usable
    have leads : twiceForbidden.world.node (Path.ofString ".") = .ok twiceForbidden.world.root := by
      cbv
    have proper : twiceForbidden.world.root.isProper = true := by decide +kernel
    have listed : ((twiceForbidden.world.root.files Node.everything []).filter fun names =>
        Eligible (LanguageTable.builtIn.extensionsFor ["javascript"]) [] names).map
          (Path.ofString ".").descend = twiceForbidden.files.files := by
      decide +kernel
    rw [World.scan_of_node isFilter proper leads, Eligibility.files_eq isFilter proper, listed]
    rfl
  refine ⟨loads, lists, .atLine (Path.ofString "a.js") 1
    "forbidden pattern 'dynamic-eval' (dynamic code evaluation)", by decide +kernel, ?_⟩
  rw [checkForbidden_eq, Project.sources, show twiceForbidden.files.files =
    [Path.ofString "./a.js"] from rfl, List.filterMap_cons, isSource]
  decide +kernel

end Rule

end RepoContract
