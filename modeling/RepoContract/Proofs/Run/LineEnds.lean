/-
# RepoContract.Proofs.Run.LineEnds: projects that differ in their line ends

Whatever is read from a source file is read from its path, its language and its lines, so two files
that agree in these (`SourceFile.SameLines`) have one mask, the same hints and the same code lines,
and every rule that judges files says of one what it says of the other. A rule that judges one file
behind the other carries this through its run, the one that remembers patterns for every list of
patterns that it may have met (`Rule.manifestsFrom_sameLines`).

Files with other line ends have the same lines, and a tree with other line ends in its files has
the same shape. So paths lead where they led, a scan lists the same files, and the rules that judge
files find the same in them (`World.findings_reended`). The rules that look at documents are left
out: they read the contract and the README as a whole.
-/
import RepoContract.Proofs.Rule.Scope
import RepoContract.Proofs.Selection
import RepoContract.Proofs.Text.LineEnd
import RepoContract.Proofs.Tree.Overwrite

namespace RepoContract

set_option autoImplicit false

open Text (Reended)
open Text.Utf8 (retByte feedByte)

/-! ## Files with the same lines -/

/-- Two source files under one path and in one language that have the same lines. -/
structure SourceFile.SameLines (first second : SourceFile) : Prop where
  path : second.path = first.path
  language : second.language = first.language
  lines : Text.lines second.text = Text.lines first.text

namespace SourceFile.SameLines

variable {first second : SourceFile} (same : first.SameLines second)

include same

theorem mask : second.mask = first.mask := by
  rw [SourceFile.mask, SourceFile.mask, Delimiters.mask, Delimiters.mask, same.language, same.lines]

theorem hints : second.hints = first.hints := by
  rw [SourceFile.hints, SourceFile.hints, Hint.ofMask, Hint.ofMask, Text.numberedLines,
    Text.numberedLines, same.mask, same.language, same.lines]

theorem codeLines : second.codeLines = first.codeLines := by
  rw [SourceFile.codeLines, SourceFile.codeLines, Text.numberedLines, Text.numberedLines, same.mask,
    same.lines]

theorem valuesOf (key : String) : second.valuesOf key = first.valuesOf key := by
  rw [SourceFile.valuesOf, SourceFile.valuesOf, same.hints]

theorem hasHint (key : String) : second.hasHint key = first.hasHint key := by
  rw [SourceFile.hasHint, SourceFile.hasHint, same.hints]

end SourceFile.SameLines

/-! ## Rules that judge files -/

namespace Rule

variable {first second : Project} {sources others : List SourceFile}

/-- A judgement that says the same of files with the same lines. -/
def ReadsLines (judge : SourceFile → List Violation) : Prop :=
  ∀ first second : SourceFile, first.SameLines second → judge second = judge first

theorem readsLines_judgeRoles (contract : Contract) : ReadsLines (judgeRoles contract) := by
  intro first second same
  rw [judgeRoles, judgeRoles, same.path, same.valuesOf]

theorem readsLines_judgeHints (contract : Contract) : ReadsLines (judgeHints contract) := by
  intro first second same
  rw [judgeHints, judgeHints, same.path, same.hints]

theorem readsLines_judgeForbidden (contract : Contract) : ReadsLines (judgeForbidden contract) := by
  intro first second same
  simp only [judgeForbidden, judgeLine, same.path, same.language, same.codeLines]

theorem readsLines_judgeAsked (language : String) (companion : Companion) (contract : Contract) :
    ReadsLines (judgeAsked language companion contract) := by
  intro first second same
  simp only [judgeAsked, judgeCompanion, same.path, same.language, same.valuesOf, same.hasHint]

theorem readsLines_judgeManifest (pattern : List Char → Bool) :
    ReadsLines (judgeManifest pattern) := by
  intro first second same
  rw [judgeManifest, judgeManifest, same.path, same.codeLines, same.hasHint]

/-- What is said of files one behind the other. -/
theorem flatMap_sameLines {judge : SourceFile → List Violation} (reads : ReadsLines judge)
    (same : List.Forall₂ SourceFile.SameLines sources others) :
    others.flatMap judge = sources.flatMap judge := by
  induction same with
  | nil => rfl
  | cons same _ ih => rw [List.flatMap_cons, List.flatMap_cons, reads _ _ same, ih]

/-- The patterns that are known so far stay the same from file to file. -/
theorem manifestsFrom_sameLines (compile : Pattern.Compiler)
    (known : List (String × (List Char → Bool)))
    (same : List.Forall₂ SourceFile.SameLines sources others) :
    manifestsFrom compile known others = manifestsFrom compile known sources := by
  induction same generalizing known with
  | nil => rfl
  | cons same _ ih =>
      simp only [manifestsFrom, same.language, ih, readsLines_judgeManifest _ _ _ same]

/-- **The rules that judge files find the same in files with the same lines.** -/
theorem check_sameLines {compile : Pattern.Compiler} {rule : Rule}
    (isRule : rule ∈ (RuleTable.builtInWith compile).rules) (judgesFiles : rule.id ∉ documentIds)
    (sameContract : second.contract = first.contract)
    (same : List.Forall₂ SourceFile.SameLines first.sources second.sources) :
    rule.check second = rule.check first := by
  cases RuleTable.builtIn_of_mem isRule with
  | contractPresent | contractSchema | readme => exact absurd (by decide) judgesFiles
  | roles =>
      simp only [perFile, sameContract, flatMap_sameLines (readsLines_judgeRoles _) same]
  | hints =>
      simp only [perFile, sameContract, flatMap_sameLines (readsLines_judgeHints _) same]
  | forbidden =>
      simp only [checkForbidden_eq, sameContract,
        flatMap_sameLines (readsLines_judgeForbidden _) same]
  | manifests => simp only [checkManifests, sameContract, manifestsFrom_sameLines _ _ same]
  | companion =>
      simp only [checkCompanion_eq, sameContract,
        flatMap_sameLines (readsLines_judgeAsked _ _ _) same]

end Rule

/-! ## Trees with other line ends -/

/-- A world and the same with other line ends in its files, in each of them as it may be. -/
structure World.Reends (world other : World) : Prop where
  current : other.current = world.current
  shape : other.root.shape = world.root.shape
  file : ∀ names bytes others, world.root.at? names = some (.file bytes) →
    other.root.at? names = some (.file others) → Reended retByte feedByte bytes others

namespace World.Reends

variable {world other : World} (reends : world.Reends other)

include reends

theorem shape_eq : other.shape = world.shape := by
  rw [World.shape, World.shape, reends.shape, reends.current]

theorem locate (final : Final) (path : Path) :
    other.locate final path = world.locate final path := by
  rw [← locate_shape other, reends.shape_eq, locate_shape]

/-- A scan lists the same files. -/
theorem scan (root : Path) (languages : LanguageTable) (declared excludes : List String) :
    other.scan root languages declared excludes = world.scan root languages declared excludes := by
  have walk (filter : Filter) : other.walk filter root = world.walk filter root := by
    rw [← walk_shape other, reends.shape_eq, walk_shape]
  simp only [World.scan, walk]

/-- What can be read of one world can be read of the other, with its line ends. -/
theorem readLossy (path : Path) :
    (∃ cause, world.readLossy path = .error cause ∧ other.readLossy path = .error cause) ∨
    ∃ text others, world.readLossy path = .ok text ∧ other.readLossy path = .ok others ∧
      Reended '\r' '\n' text others := by
  simp only [World.readLossy, World.read, World.node, reends.locate]
  cases world.locate .follow path with
  | error cause => exact .inl ⟨cause, rfl, rfl⟩
  | ok there =>
      -- nodes of the same shape are of the same kind, so only the bytes of a file can differ
      have sameShape : (other.root.at? there).map Node.shape =
          (world.root.at? there).map Node.shape := by
        rw [← Node.at?_shape, ← Node.at?_shape, reends.shape]
      have isFile := reends.file there
      cases here : world.root.at? there with
      | none =>
          rw [here, Option.map_none, Option.map_eq_none_iff] at sameShape
          simp only [bind, Except.bind, here, sameShape]
          exact .inl ⟨_, rfl, rfl⟩
      | some node =>
          rw [here] at sameShape
          obtain ⟨otherNode, otherHere, sameNode⟩ := Option.map_eq_some_iff.1 sameShape
          simp only [bind, Except.bind, here, otherHere]
          cases node with
          | link target =>
              cases otherNode with
              | link other => exact .inl ⟨_, rfl, rfl⟩
              | file others | dir entries => cases sameNode
          | dir entries =>
              cases otherNode with
              | dir others => exact .inl ⟨_, rfl, rfl⟩
              | file others | link target => cases sameNode
          | file bytes =>
              cases otherNode with
              | link target | dir entries => cases sameNode
              | file others =>
                  exact .inr ⟨_, _, rfl, rfl, (isFile bytes others here otherHere).decodeLossy⟩

/-- The source files of one world have the lines of the other's. -/
theorem sources (root : Path) (contract : Contract) (files : FileList) (languages : LanguageTable) :
    List.Forall₂ SourceFile.SameLines (Project.mk world root contract files languages).sources
      (Project.mk other root contract files languages).sources := by
  simp only [Project.sources]
  induction files.files with
  | nil => exact .nil
  | cons path rest ih =>
      rw [List.filterMap_cons, List.filterMap_cons]
      simp only [Project.source?]
      cases SourceFile.classify? languages path with
      | none => exact ih
      | some language =>
          rcases reends.readLossy path with ⟨cause, fails, otherFails⟩ |
            ⟨text, others, isRead, otherIsRead, reended⟩
          · rw [fails, otherFails]
            exact ih
          · rw [isRead, otherIsRead]
            exact .cons ⟨rfl, rfl, reended.lines_eq⟩ ih

end World.Reends

/-! ## Findings -/

namespace World

/-- **Line ends change no finding.** In any language, whatever marks its comments, a text with other
line ends has the same mask, the same hints and the same code lines. In a tree with other line ends
a scan lists the same files, and the built-in rules that judge files find the same in them, whatever
compiles the export patterns. -/
theorem findings_reended {world other : World} (reends : world.Reends other) (root : Path)
    (languages : LanguageTable) :
    (∀ (path : Path) (language : Language) (text others : List Char),
      Reended '\r' '\n' text others →
        let file (text : List Char) : SourceFile := ⟨path, language, text⟩
        (file others).mask = (file text).mask ∧ (file others).hints = (file text).hints ∧
          (file others).codeLines = (file text).codeLines) ∧
    (∀ declared excludes, other.scan root languages declared excludes =
      world.scan root languages declared excludes) ∧
    ∀ compile, ∀ rule ∈ (RuleTable.builtInWith compile).rules, rule.id ∉ Rule.documentIds →
      ∀ contract files, rule.check ⟨other, root, contract, files, languages⟩ =
        rule.check ⟨world, root, contract, files, languages⟩ := by
  refine ⟨fun path language text others reended => ?_, reends.scan root languages,
    fun compile rule isRule judgesFiles contract files => ?_⟩
  · intro file
    have same : (file text).SameLines (file others) := ⟨rfl, rfl, reended.lines_eq⟩
    exact ⟨same.mask, same.hints, same.codeLines⟩
  · exact Rule.check_sameLines isRule judgesFiles rfl (reends.sources root contract files languages)

/-- A project with one script. -/
def scriptOf (bytes : List UInt8) : World :=
  ⟨.dir [((Path.ofString "a.js").bytes, .file bytes)], []⟩

theorem reends_scriptOf {bytes others : List UInt8}
    (reended : Reended retByte feedByte bytes others) :
    (scriptOf bytes).Reends (scriptOf others) where
  current := rfl
  shape := rfl
  file names content otherContent here otherHere := by
    have inTree := Node.mem_locations here
    simp only [scriptOf, Node.locations, Node.locationsOf, List.map_cons, List.map_nil,
      List.append_nil, List.mem_cons, List.not_mem_nil, or_false] at inTree
    rcases inTree with rfl | rfl
    · cases here
    · cases here
      cases otherHere
      exact reended

/-- A hint with a value and a line of code, in each of the three versions of a script. -/
theorem findings_reended_script :
    let text := "// @aocs-rule: x\neval(1)"
    let bytes := Text.Utf8.encode text.toList
    let file (text : List Char) : SourceFile := ⟨Path.ofString "a.js",
      ⟨"javascript", ["js", "mjs", "cjs", "jsx"], LanguageTable.slashComments,
        LanguageTable.scriptExport⟩, text⟩
    (file (Text.returned '\r' '\n' text.toList)).hints = [⟨1, "rule", some "x"⟩] ∧
    (file (text.toList ++ ['\n'])).codeLines = [(2, "eval(1)".toList)] ∧
    ∀ others ∈ [Text.returned retByte feedByte bytes, bytes ++ [feedByte]],
      ∀ rule ∈ RuleTable.builtIn.rules, rule.id ∉ Rule.documentIds → ∀ contract files,
        rule.check ⟨scriptOf others, Path.ofString ".", contract, files, .builtIn⟩ =
          rule.check ⟨scriptOf bytes, Path.ofString ".", contract, files, .builtIn⟩ := by
  intro text bytes file
  have versions : ∀ others ∈ [Text.returned retByte feedByte bytes, bytes ++ [feedByte]],
      Reended retByte feedByte bytes others := by
    decide +kernel
  have unchanged (others : List UInt8)
      (isVersion : others ∈ [Text.returned retByte feedByte bytes, bytes ++ [feedByte]]) :=
    findings_reended (reends_scriptOf (versions others isVersion)) (Path.ofString ".") .builtIn
  have ofFile := (unchanged _ List.mem_cons_self).1
  have returned : Reended '\r' '\n' text.toList (Text.returned '\r' '\n' text.toList) :=
    .returned (by decide +kernel)
  have finished : Reended '\r' '\n' text.toList (text.toList ++ ['\n']) :=
    .finished (by decide +kernel) (by decide +kernel) (by decide +kernel)
  exact ⟨(ofFile _ _ _ _ returned).2.1.trans (by decide +kernel),
    (ofFile _ _ _ _ finished).2.2.trans (by decide +kernel),
    fun others isVersion => (unchanged others isVersion).2.2 Pattern.compile⟩

end World

end RepoContract
