/-
# RepoContract.Proofs.Rule.Manifests: by which pattern the exports of a file are told

The check on manifests compiles the export pattern of a language once for its name and keeps it for
the files that follow. What it keeps is the pattern of the first source whose language has that name
(`Remembered`, the invariant of the run), so each file is judged by the pattern that is in force for
its name (`Project.patternInForce`), and the check is refused by the first file whose pattern in
force does not compile (`manifestsFrom_eq_manifestsBy`). Nothing is asked of what compiles the
patterns: all of this holds for any compiler.

The pattern in force is the file's own as long as no two sources are in languages of one name with
different patterns. `Rule.checkManifests_reports` says both. A table can hold two such languages,
since a language that is added later takes over the name and its extensions and leaves the others to
the earlier one; `Rule.manifests_stale` is a file that is judged by the pattern of the other.
-/
import Mathlib
import RepoContract.Language.BuiltIn
import RepoContract.Proofs.Source
import RepoContract.Rule.Code

namespace RepoContract

set_option autoImplicit false

namespace Rule

/-! ## Judging by given patterns -/

/-- The pattern of a file's own language, compiled for this file. -/
def ownPattern (compile : Pattern.Compiler) (source : SourceFile) :
    Except Fault (List Char → Bool) :=
  exportPattern compile source.language

/-- Judge files in order, each by the pattern that is given for it. -/
def manifestsBy (patternOf : SourceFile → Except Fault (List Char → Bool)) :
    List SourceFile → Except Fault (List Violation)
  | [] => .ok []
  | source :: rest => do
    let pattern ← patternOf source
    let more ← manifestsBy patternOf rest
    return judgeManifest pattern source ++ more

/-- A file that exports something, as its pattern tells, and names no module. -/
structure LacksManifest (patternOf : SourceFile → Except Fault (List Char → Bool))
    (source : SourceFile) : Prop where
  exports : ∃ pattern, patternOf source = .ok pattern ∧
    ∃ number line, (number, line) ∈ source.codeLines ∧ pattern line = true
  without : ∀ number value, ¬ source.Declares "module" number value

/-- What the check on manifests finds in a file. -/
inductive ManifestFindings (patternOf : SourceFile → Except Fault (List Char → Bool))
    (source : SourceFile) : List Violation → Prop
  | lacking (lacks : LacksManifest patternOf source) : ManifestFindings patternOf source
      [.atLine source.path 1 "exports public items but declares no @aocs-module manifest"]
  | settled (inOrder : ¬ LacksManifest patternOf source) : ManifestFindings patternOf source []

/-- How judging the files of a project by given patterns ends: it is refused by the first file whose
pattern does not compile, or it reports the findings of each file. -/
inductive ManifestVerdict (project : Project)
    (patternOf : SourceFile → Except Fault (List Char → Bool)) : Verdict → Prop
  | refused {before after : List Path} {listed : Path} {source : SourceFile} {fault : Fault}
      (isListed : project.files.files = before ++ listed :: after)
      (readable : ∀ earlier ∈ before, ∀ other, project.Opens earlier other →
        ∃ pattern, patternOf other = .ok pattern)
      (opens : project.Opens listed source) (fails : patternOf source = .error fault) :
      ManifestVerdict project patternOf (.refused fault)
  | found {violations : List Violation}
      (readable : ∀ listed ∈ project.files.files, ∀ source, project.Opens listed source →
        ∃ pattern, patternOf source = .ok pattern)
      (reports : project.ReportsByFile (ManifestFindings patternOf) violations) :
      ManifestVerdict project patternOf (.found violations)

variable {project : Project} {patternOf : SourceFile → Except Fault (List Char → Bool)}
  {source : SourceFile} {share : List Violation} {known : List (String × (List Char → Bool))}

/-- What a file comes to by the pattern that is given for it. -/
def judgeBy (patternOf : SourceFile → Except Fault (List Char → Bool)) (source : SourceFile) :
    List Violation :=
  match patternOf source with
  | .ok pattern => judgeManifest pattern source
  | .error _ => []

theorem manifestFindings_judgeBy (patternOf : SourceFile → Except Fault (List Char → Bool))
    (source : SourceFile) : ManifestFindings patternOf source (judgeBy patternOf source) := by
  rw [judgeBy]
  cases isPattern : patternOf source with
  | error fault =>
      refine .settled fun lacks => ?_
      obtain ⟨pattern, isOk, -⟩ := lacks.exports
      rw [isPattern] at isOk
      contradiction
  | ok pattern =>
      simp only [judgeManifest]
      split
      · next found =>
          simp only [Bool.and_eq_true, List.any_eq_true, Prod.exists, Bool.not_eq_true'] at found
          obtain ⟨exports, unnamed⟩ := found
          refine .lacking ⟨⟨pattern, isPattern, exports⟩, fun number value isDeclared => ?_⟩
          rw [SourceFile.hasHint_iff.2 ⟨number, value, isDeclared⟩] at unnamed
          contradiction
      · next nothing =>
          refine .settled fun lacks => nothing ?_
          obtain ⟨other, isOther, exports⟩ := lacks.exports
          obtain rfl : pattern = other := Except.ok.inj (isPattern.symm.trans isOther)
          have unnamed : source.hasHint "module" = false := by
            rw [← Bool.not_eq_true, SourceFile.hasHint_iff]
            rintro ⟨number, value, isDeclared⟩
            exact lacks.without number value isDeclared
          simp only [Bool.and_eq_true, List.any_eq_true, Prod.exists, unnamed]
          exact ⟨exports, rfl⟩

theorem ManifestFindings.eq_nil_iff (findings : ManifestFindings patternOf source share) :
    share = [] ↔ ¬ LacksManifest patternOf source := by
  cases findings with
  | lacking lacks => simp [lacks]
  | settled inOrder => simp [inOrder]

theorem manifestsBy_of_ok {pattern : List Char → Bool} (isPattern : patternOf source = .ok pattern)
    (rest : List SourceFile) :
    manifestsBy patternOf (source :: rest) =
      (manifestsBy patternOf rest).map (judgeManifest pattern source ++ ·) := by
  rw [manifestsBy, isPattern]
  cases manifestsBy patternOf rest <;> rfl

theorem manifestsBy_of_error {fault : Fault} (fails : patternOf source = .error fault)
    (rest : List SourceFile) : manifestsBy patternOf (source :: rest) = .error fault := by
  rw [manifestsBy, fails]
  rfl

/-- Where every pattern compiles, judging files comes to what each of them comes to. -/
theorem manifestsBy_of_readable {sources : List SourceFile}
    (readable : ∀ source ∈ sources, ∃ pattern, patternOf source = .ok pattern) :
    manifestsBy patternOf sources = .ok (sources.flatMap (judgeBy patternOf)) := by
  induction sources with
  | nil => rfl
  | cons source rest ih =>
      obtain ⟨⟨pattern, isPattern⟩, readable⟩ := List.forall_mem_cons.1 readable
      rw [manifestsBy_of_ok isPattern, ih readable, List.flatMap_cons, judgeBy, isPattern]
      rfl

/-- Judging files is refused by the first whose pattern does not compile, or it comes to what each
of them comes to. -/
theorem manifestsBy_cases (patternOf : SourceFile → Except Fault (List Char → Bool))
    (sources : List SourceFile) :
    (∃ before source after fault, sources = before ++ source :: after ∧
        (∀ earlier ∈ before, ∃ pattern, patternOf earlier = .ok pattern) ∧
        patternOf source = .error fault ∧ manifestsBy patternOf sources = .error fault) ∨
      (∀ source ∈ sources, ∃ pattern, patternOf source = .ok pattern) ∧
      manifestsBy patternOf sources = .ok (sources.flatMap (judgeBy patternOf)) := by
  induction sources with
  | nil => exact .inr ⟨List.forall_mem_nil _, rfl⟩
  | cons first rest ih =>
      cases isPattern : patternOf first with
      | error fault =>
          exact .inl ⟨[], first, rest, fault, rfl, List.forall_mem_nil _, isPattern,
            manifestsBy_of_error isPattern rest⟩
      | ok pattern =>
          have here : ∃ pattern, patternOf first = .ok pattern := ⟨pattern, isPattern⟩
          rcases ih with ⟨before, source, after, fault, rfl, readable, fails, ended⟩ | ⟨readable, -⟩
          · refine .inl ⟨first :: before, source, after, fault, rfl,
              List.forall_mem_cons.2 ⟨here, readable⟩, fails, ?_⟩
            rw [manifestsBy_of_ok isPattern, ended]
            rfl
          · have all : ∀ source ∈ first :: rest, ∃ pattern, patternOf source = .ok pattern :=
              List.forall_mem_cons.2 ⟨here, readable⟩
            exact .inr ⟨all, manifestsBy_of_readable all⟩

/-- **How judging by given patterns ends.** -/
theorem manifestVerdict_manifestsBy (project : Project)
    (patternOf : SourceFile → Except Fault (List Char → Bool)) :
    ManifestVerdict project patternOf
      (match manifestsBy patternOf project.sources with
        | .ok violations => .found violations
        | .error fault => .refused fault) := by
  rcases manifestsBy_cases patternOf project.sources with
    ⟨before, source, after, fault, isSplit, readable, fails, ended⟩ | ⟨readable, ended⟩
  · rw [ended]
    obtain ⟨front, back, isFiles, isBefore, isBack⟩ := List.filterMap_eq_append_iff.1 isSplit
    -- between the sources before and the one that fails, files may be passed over
    obtain ⟨passed, listed, rest, rfl, closed, isSource, -⟩ := List.filterMap_eq_cons_iff.1 isBack
    have isListed : project.files.files = front ++ passed ++ listed :: rest := by
      rw [isFiles, List.append_assoc]
    refine .refused isListed ?_ (Project.opens_iff.2 isSource) fails
    intro earlier isEarlier other opens
    rw [Project.opens_iff] at opens
    rcases List.mem_append.1 isEarlier with inFront | isPassed
    · apply readable
      rw [← isBefore]
      exact List.mem_filterMap.2 ⟨earlier, inFront, opens⟩
    · rw [closed earlier isPassed] at opens
      contradiction
  · rw [ended]
    refine .found ?_ (Project.reportsByFile_flatMap (manifestFindings_judgeBy patternOf))
    intro listed isListed source opens
    exact readable source (Project.mem_sources_iff.2 ⟨listed, isListed, opens⟩)

/-! ## Remembered patterns -/

/-- The first of some sources in a language of some name. -/
def firstNamed? (sources : List SourceFile) (name : String) : Option SourceFile :=
  sources.find? fun source => source.language.name = name

/-- The pattern of the first of some sources in a language of the same name. -/
def patternAmong (compile : Pattern.Compiler) (sources : List SourceFile) (source : SourceFile) :
    Except Fault (List Char → Bool) :=
  exportPattern compile ((firstNamed? sources source.language.name).getD source).language

/-- What is remembered is what the first source of each name came to. -/
structure Remembered (compile : Pattern.Compiler) (before : List SourceFile)
    (known : List (String × (List Char → Bool))) : Prop where
  isKnown : ∀ name pattern, known.lookup name = some pattern →
    ∃ first, firstNamed? before name = some first ∧
      exportPattern compile first.language = .ok pattern
  isNew : ∀ name, known.lookup name = none → firstNamed? before name = none

variable {compile : Pattern.Compiler} {before : List SourceFile} {name : String}

theorem remembered_nil : Remembered compile [] [] := by
  constructor
  · intro name pattern isKnown
    contradiction
  · intro name _
    rfl

theorem firstNamed?_append (before after : List SourceFile) (name : String) :
    firstNamed? (before ++ after) name = (firstNamed? before name).or (firstNamed? after name) :=
  List.find?_append

/-- A source whose name is known changes nothing. -/
theorem Remembered.keep (remembered : Remembered compile before known)
    {pattern : List Char → Bool} (isKnown : known.lookup source.language.name = some pattern) :
    Remembered compile (before ++ [source]) known := by
  constructor
  · intro name other isOther
    obtain ⟨first, isFirst, isPattern⟩ := remembered.isKnown name other isOther
    refine ⟨first, ?_, isPattern⟩
    rw [firstNamed?_append, isFirst, Option.some_or]
  · intro name isNew
    have differs : source.language.name ≠ name := by
      rintro rfl
      rw [isKnown] at isNew
      contradiction
    rw [firstNamed?_append, remembered.isNew name isNew, Option.none_or]
    simp [firstNamed?, differs]

/-- A source whose name is new is the first of that name. -/
theorem Remembered.add (remembered : Remembered compile before known)
    {pattern : List Char → Bool} (isNew : known.lookup source.language.name = none)
    (isPattern : exportPattern compile source.language = .ok pattern) :
    Remembered compile (before ++ [source]) ((source.language.name, pattern) :: known) := by
  constructor
  · intro name other isOther
    rw [List.lookup_cons] at isOther
    split at isOther
    · next sameName =>
        obtain rfl := beq_iff_eq.1 sameName
        obtain rfl := Option.some.inj isOther
        refine ⟨source, ?_, isPattern⟩
        rw [firstNamed?_append, remembered.isNew _ isNew, Option.none_or]
        simp [firstNamed?]
    · obtain ⟨first, isFirst, isRead⟩ := remembered.isKnown name other isOther
      refine ⟨first, ?_, isRead⟩
      rw [firstNamed?_append, isFirst, Option.some_or]
  · intro name absent
    rw [List.lookup_cons] at absent
    split at absent
    · contradiction
    · next differs =>
        have isOther : source.language.name ≠ name := by
          rintro rfl
          rw [beq_self_eq_true] at differs
          contradiction
        rw [firstNamed?_append, remembered.isNew name absent, Option.none_or]
        simp [firstNamed?, isOther]

/-- **Remembering patterns by name judges each file by the pattern of the first of its name.** -/
theorem manifestsFrom_eq_manifestsBy (remembered : Remembered compile before known)
    (rest : List SourceFile) :
    manifestsFrom compile known rest =
      manifestsBy (patternAmong compile (before ++ rest)) rest := by
  induction rest generalizing before known with
  | nil => rfl
  | cons source rest ih =>
      have onward : before ++ source :: rest = before ++ [source] ++ rest := by simp
      have inForce : patternAmong compile (before ++ source :: rest) source =
          exportPattern compile
            ((firstNamed? before source.language.name).getD source).language := by
        rw [patternAmong, firstNamed?_append]
        cases firstNamed? before source.language.name <;> simp [firstNamed?]
      rw [manifestsFrom]
      cases found : known.lookup source.language.name with
      | some pattern =>
          obtain ⟨first, isFirst, isPattern⟩ := remembered.isKnown _ _ found
          rw [isFirst, Option.getD_some, isPattern] at inForce
          rw [manifestsBy_of_ok inForce, onward, ← ih (remembered.keep found)]
          simp only [bind, Except.bind, pure, Except.pure]
          cases manifestsFrom compile known rest <;> rfl
      | none =>
          rw [remembered.isNew _ found, Option.getD_none] at inForce
          cases isPattern : exportPattern compile source.language with
          | error fault =>
              rw [isPattern] at inForce
              rw [manifestsBy_of_error inForce]
              rfl
          | ok pattern =>
              rw [isPattern] at inForce
              rw [manifestsBy_of_ok inForce, onward, ← ih (remembered.add found isPattern)]
              simp only [bind, Except.bind, pure, Except.pure]
              cases manifestsFrom compile ((source.language.name, pattern) :: known) rest <;> rfl

/-- Patterns that agree on some sources judge them alike. -/
theorem manifestsBy_congr {other : SourceFile → Except Fault (List Char → Bool)}
    {sources : List SourceFile} (agree : ∀ source ∈ sources, patternOf source = other source) :
    manifestsBy patternOf sources = manifestsBy other sources := by
  induction sources with
  | nil => rfl
  | cons source rest ih =>
      obtain ⟨isSame, agree⟩ := List.forall_mem_cons.1 agree
      rw [manifestsBy, manifestsBy, isSame, ih agree]

end Rule

/-! ## The pattern in force -/

namespace Project

/-- The pattern by which a source of a project is judged: that of the first source in a language of
the same name. -/
def patternInForce (project : Project) (compile : Pattern.Compiler) (source : SourceFile) :
    Except Fault (List Char → Bool) :=
  Rule.patternAmong compile project.sources source

/-- Sources in languages of one name have one pattern. -/
def NamesPatterns (project : Project) : Prop :=
  ∀ first ∈ project.sources, ∀ second ∈ project.sources,
    first.language.name = second.language.name →
      first.language.exportPattern = second.language.exportPattern

/-- Where a name has one pattern, the pattern in force is the file's own. -/
theorem NamesPatterns.patternInForce_eq {project : Project} (named : project.NamesPatterns)
    (compile : Pattern.Compiler) {source : SourceFile} (isSource : source ∈ project.sources) :
    project.patternInForce compile source = Rule.ownPattern compile source := by
  cases found : Rule.firstNamed? project.sources source.language.name with
  | none => rw [patternInForce, Rule.patternAmong, found, Option.getD_none, Rule.ownPattern]
  | some first =>
      have sameName : first.language.name = source.language.name := by
        simpa using List.find?_some found
      have samePattern := named first (List.mem_of_find?_eq_some found) source isSource sameName
      rw [patternInForce, Rule.patternAmong, found, Option.getD_some, Rule.ownPattern,
        Rule.exportPattern, Rule.exportPattern, sameName, samePattern]

end Project

namespace Rule

/-- A strict project is judged by the patterns in force. -/
theorem checkManifests_of_strict (compile : Pattern.Compiler) {project : Project}
    (isStrict : project.contract.mode = .strict) :
    checkManifests compile project =
      match manifestsBy (project.patternInForce compile) project.sources with
      | .ok violations => .found violations
      | .error fault => .refused fault := by
  rw [checkManifests, isStrict, if_pos (by rfl),
    manifestsFrom_eq_manifestsBy remembered_nil project.sources]
  rfl

/-- **By which patterns manifests are judged.** For every compiler, every table of languages and
every list of files, a strict project is judged by the patterns in force. So each file is judged by
the pattern of its own language as long as sources in languages of one name have one pattern. -/
theorem checkManifests_reports (compile : Pattern.Compiler) {project : Project}
    (isStrict : project.contract.mode = .strict) :
    ManifestVerdict project (project.patternInForce compile) (checkManifests compile project) ∧
      (project.NamesPatterns →
        ManifestVerdict project (ownPattern compile) (checkManifests compile project)) := by
  rw [checkManifests_of_strict compile isStrict]
  refine ⟨manifestVerdict_manifestsBy project (project.patternInForce compile), fun named => ?_⟩
  have own : manifestsBy (project.patternInForce compile) project.sources =
      manifestsBy (ownPattern compile) project.sources :=
    manifestsBy_congr fun source isSource => named.patternInForce_eq compile isSource
  rw [own]
  exact manifestVerdict_manifestsBy project (ownPattern compile)

/-- A strict project with some scripts below its root, and some languages besides the built-in
ones. -/
def scripted (scripts : List (String × String)) (further : List Language) : Project :=
  let entries := scripts.map fun (name, text) =>
    ((Path.ofString name).bytes, Node.file (Text.Utf8.encode text.toList))
  ⟨⟨.dir entries, []⟩, Path.ofString ".", Contract.minimal ["javascript"] .strict,
    ⟨Path.ofString ".", scripts.map fun (name, _) => Path.ofString ("./" ++ name)⟩,
    LanguageTable.empty.addAll (LanguageTable.builtInLanguages ++ further)⟩

/-- Two scripts that export something, of which the second names its module. -/
def exporting : Project :=
  scripted [("a.js", "export let a;\n"), ("b.js", "// @aocs-module: b\nexport let b;\n")] []

/-- The pattern that is read for the first script serves for the second. -/
theorem checkManifests_reports_exporting :
    let found := [Violation.atLine (Path.ofString "a.js") 1
      "exports public items but declares no @aocs-module manifest"]
    exporting.NamesPatterns ∧ checkManifests Pattern.compile exporting = .found found ∧
      ManifestVerdict exporting (ownPattern Pattern.compile) (.found found) := by
  intro found
  let javascript : Language :=
    ⟨"javascript", ["js", "mjs", "cjs", "jsx"], LanguageTable.slashComments,
      LanguageTable.scriptExport⟩
  have sources : exporting.sources = [
      ⟨Path.ofString "a.js", javascript, "export let a;\n".toList⟩,
      ⟨Path.ofString "b.js", javascript, "// @aocs-module: b\nexport let b;\n".toList⟩] := by
    cbv
  have named : exporting.NamesPatterns := by
    rw [Project.NamesPatterns, sources]
    simp
  have isFound : checkManifests Pattern.compile exporting = .found found := by
    rw [checkManifests, sources]
    decide +kernel
  refine ⟨named, isFound, ?_⟩
  rw [← isFound]
  exact (checkManifests_reports Pattern.compile rfl).2 named

/-- A language that takes over the name of another and has an extension of its own. -/
def pages : Language :=
  ⟨"javascript", ["vue"], LanguageTable.slashComments, "^__all__\\s*="⟩

/-- A script and a page that exports something by the pattern of its own language. -/
def twiceNamed : Project :=
  scripted [("a.js", "let x = 1;\n"), ("b.vue", "__all__ = 1\n")] [pages]

/-- The page as it is read. -/
def exportingPage : SourceFile :=
  ⟨Path.ofString "b.vue", pages, "__all__ = 1\n".toList⟩

theorem opens_exportingPage : twiceNamed.Opens (Path.ofString "./b.vue") exportingPage := by
  rw [Project.opens_iff]
  cbv

theorem lacksManifest_exportingPage :
    LacksManifest (ownPattern Pattern.compile) exportingPage := by
  by_contra inOrder
  have findings := manifestFindings_judgeBy (ownPattern Pattern.compile) exportingPage
  have nothing := findings.eq_nil_iff.2 inOrder
  have something : judgeBy (ownPattern Pattern.compile) exportingPage ≠ [] := by decide +kernel
  exact something nothing

theorem checkManifests_twiceNamed :
    checkManifests Pattern.compile twiceNamed = .found [] := by
  let javascript : Language :=
    ⟨"javascript", ["js", "mjs", "cjs", "jsx"], LanguageTable.slashComments,
      LanguageTable.scriptExport⟩
  have sources : twiceNamed.sources =
      [⟨Path.ofString "a.js", javascript, "let x = 1;\n".toList⟩, exportingPage] := by
    cbv
  rw [checkManifests, sources]
  decide +kernel

/-- **A remembered pattern can be that of another language.** The page is judged by the pattern of
the script before it, so that nothing is found, while its own language says that it exports
something. -/
theorem manifests_stale :
    twiceNamed.contract.mode = .strict ∧
      checkManifests Pattern.compile twiceNamed = .found [] ∧
      (∃ page, twiceNamed.Opens (Path.ofString "./b.vue") page ∧ page.language = pages ∧
        LacksManifest (ownPattern Pattern.compile) page) ∧
      ¬ ManifestVerdict twiceNamed (ownPattern Pattern.compile)
        (checkManifests Pattern.compile twiceNamed) := by
  have isListed : Path.ofString "./b.vue" ∈ twiceNamed.files.files := by decide
  refine ⟨rfl, checkManifests_twiceNamed,
    ⟨exportingPage, opens_exportingPage, rfl, lacksManifest_exportingPage⟩, fun verdict => ?_⟩
  rw [checkManifests_twiceNamed] at verdict
  cases verdict with
  | found _ reports =>
      have inOrder := (reports.eq_nil_iff fun _ _ findings => findings.eq_nil_iff).1 rfl
      exact inOrder _ isListed exportingPage opens_exportingPage lacksManifest_exportingPage

end Rule

end RepoContract
