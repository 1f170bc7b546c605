/-
# RepoContract.Proofs.Source: what rules see of a source file

A source file hands its lines to the rules with their numbers and with the verdict of its mask,
which has one for each line, so no line is lost or moved. The code lines are those with the verdict
that they are no comments, each under its own number (`SourceFile.mem_codeLines_iff`), in the order
of the file (`SourceFile.pairwise_codeLines`). The hints come from the others in the same way, at
most one from each (`SourceFile.pairwise_hints`), and what a hint with a value says is told without
them by `SourceFile.Declares`.

Which listed files become sources at all is `Project.Opens`. What a check that judges sources one by
one has found is told by the files listed: each has a share in it, and the shares come in the order
listed (`Project.ReportsByFile`).
-/
import Mathlib.Data.List.Forall2
import RepoContract.Rule.Basic

namespace RepoContract

set_option autoImplicit false

/-- Places go up along a list. -/
theorem pairwise_zipIdx {α : Type} (items : List α) :
    items.zipIdx.Pairwise fun earlier later => earlier.2 < later.2 := by
  rw [← List.pairwise_map, List.zipIdx_map_snd]
  exact List.pairwise_lt_range'

/-- Among items with ascending keys the first that passes is the one with the least key. -/
theorem find?_eq_some_of_ascending {α : Type} {items : List (Nat × α)}
    (ascending : items.Pairwise fun earlier later => earlier.1 < later.1)
    (passes : Nat × α → Bool) {item : Nat × α} :
    items.find? passes = some item ↔ item ∈ items ∧ passes item = true ∧
      ∀ other ∈ items, other.1 < item.1 → passes other = false := by
  induction ascending with
  | nil => simp
  | @cons first rest before _ ih =>
      rw [List.find?_cons]
      cases passed : passes first with
      | true =>
          constructor
          · rintro ⟨⟩
            refine ⟨List.mem_cons_self, passed, ?_⟩
            intro other isOther earlier
            rcases List.mem_cons.1 isOther with rfl | inRest
            · exact absurd earlier (Nat.lt_irrefl _)
            · exact absurd (before other inRest) (Nat.lt_asymm earlier)
          · rintro ⟨isItem, -, least⟩
            rcases List.mem_cons.1 isItem with rfl | inRest
            · rfl
            · have failed := least first List.mem_cons_self (before item inRest)
              rw [passed] at failed
              contradiction
      | false =>
          rw [ih, List.mem_cons, List.forall_mem_cons]
          constructor
          · rintro ⟨inRest, isPassed, least⟩
            exact ⟨.inr inRest, isPassed, fun _ => passed, least⟩
          · rintro ⟨rfl | inRest, isPassed, -, least⟩
            · rw [passed] at isPassed
              contradiction
            · exact ⟨inRest, isPassed, least⟩

namespace SourceFile

variable {source : SourceFile} {key value : String} {number : Nat} {line : List Char}

/-! ## Lines -/

/-- The numbered lines, each with whether it is a comment. -/
def judgedLines (source : SourceFile) : List ((Nat × List Char) × Bool) :=
  (Text.numberedLines source.text).zip source.mask

theorem getElem?_numberedLines (text : List Char) (index : Nat) :
    (Text.numberedLines text)[index]? = (Text.lines text)[index]?.map fun line =>
      (index + 1, line) := by
  simp only [Text.numberedLines, List.getElem?_map, List.getElem?_zipIdx, Option.map_map,
    Nat.zero_add]
  rfl

theorem mem_judgedLines_iff {isComment : Bool} :
    ((number, line), isComment) ∈ source.judgedLines ↔ ∃ index, number = index + 1 ∧
      (Text.lines source.text)[index]? = some line ∧ source.mask[index]? = some isComment := by
  rw [judgedLines, List.mem_iff_getElem?]
  refine exists_congr fun index => ?_
  rw [List.getElem?_zip_eq_some, getElem?_numberedLines, Option.map_eq_some_iff]
  constructor
  · rintro ⟨⟨other, isLine, same⟩, isVerdict⟩
    cases same
    exact ⟨rfl, isLine, isVerdict⟩
  · rintro ⟨rfl, isLine, isVerdict⟩
    exact ⟨⟨line, isLine, rfl⟩, isVerdict⟩

theorem pairwise_judgedLines (source : SourceFile) :
    source.judgedLines.Pairwise fun earlier later => earlier.1.1 < later.1.1 := by
  have ascending : (Text.numberedLines source.text).Pairwise
      fun earlier later => earlier.1 < later.1 :=
    List.pairwise_map.2 ((pairwise_zipIdx _).imp Nat.succ_lt_succ)
  rw [List.pairwise_iff_getElem] at ascending ⊢
  intro first second isFirst isSecond before
  simp only [judgedLines, List.getElem_zip]
  exact ascending first second _ _ before

/-- **The code lines are those that the mask does not mark**, each with its number. -/
theorem mem_codeLines_iff :
    (number, line) ∈ source.codeLines ↔ ∃ index, number = index + 1 ∧
      (Text.lines source.text)[index]? = some line ∧ source.mask[index]? = some false := by
  rw [← mem_judgedLines_iff, codeLines, List.mem_filterMap]
  constructor
  · rintro ⟨⟨numbered, isComment⟩, isJudged, kept⟩
    cases isComment with
    | true => simp at kept
    | false =>
        obtain rfl : numbered = (number, line) := by simpa using kept
        exact isJudged
  · intro isJudged
    exact ⟨_, isJudged, rfl⟩

/-- Code lines come in the order of their numbers. -/
theorem pairwise_codeLines (source : SourceFile) :
    source.codeLines.Pairwise fun earlier later => earlier.1 < later.1 := by
  rw [codeLines, List.pairwise_filterMap]
  refine source.pairwise_judgedLines.imp ?_
  rintro ⟨earlier, isComment⟩ ⟨later, isCommentLater⟩ before here kept there keptLater
  cases isComment <;> cases isCommentLater <;> simp_all

/-! ## Hints -/

/-- A comment line of a file gives a key a value that is not empty. -/
def Declares (source : SourceFile) (key : String) (number : Nat) (value : String) : Prop :=
  value ≠ "" ∧ ∃ index line, number = index + 1 ∧
    (Text.lines source.text)[index]? = some line ∧ source.mask[index]? = some true ∧
    Hint.ofLine? (source.language.comments.block.map (·.2)) number line =
      some { line := number, key, value := some value }

theorem line_of_ofLine? {closers : List (List Char)} {hint : Hint}
    (found : Hint.ofLine? closers number line = some hint) : hint.line = number := by
  obtain ⟨_, -, rfl⟩ := Option.map_eq_some_iff.1 found
  rfl

/-- **The hints are those of the lines that the mask marks.** -/
theorem mem_hints_iff {hint : Hint} :
    hint ∈ source.hints ↔ ∃ index line, hint.line = index + 1 ∧
      (Text.lines source.text)[index]? = some line ∧ source.mask[index]? = some true ∧
      Hint.ofLine? (source.language.comments.block.map (·.2)) hint.line line = some hint := by
  rw [hints, Hint.ofMask, List.mem_filterMap]
  constructor
  · rintro ⟨⟨⟨number, line⟩, isComment⟩, isJudged, found⟩
    cases isComment with
    | false => simp at found
    | true =>
        obtain ⟨index, isNumber, isLine, isMarked⟩ := mem_judgedLines_iff.1 isJudged
        obtain rfl := line_of_ofLine? found
        exact ⟨index, line, isNumber, isLine, isMarked, found⟩
  · rintro ⟨index, line, isNumber, isLine, isMarked, found⟩
    exact ⟨_, mem_judgedLines_iff.2 ⟨index, isNumber, isLine, isMarked⟩, found⟩

/-- Hints come in the order of their lines, at most one from each. -/
theorem pairwise_hints (source : SourceFile) :
    source.hints.Pairwise fun earlier later => earlier.line < later.line := by
  rw [hints, Hint.ofMask, List.pairwise_filterMap]
  refine source.pairwise_judgedLines.imp ?_
  rintro ⟨⟨number, line⟩, isComment⟩ ⟨⟨later, laterLine⟩, isCommentLater⟩ before here found there
    foundLater
  cases isComment <;> cases isCommentLater <;> simp at found foundLater
  rw [line_of_ofLine? found, line_of_ofLine? foundLater]
  exact before

theorem mem_valuesOf_iff :
    (number, value) ∈ source.valuesOf key ↔ source.Declares key number value := by
  rw [valuesOf, List.mem_filterMap]
  constructor
  · rintro ⟨⟨lineNumber, hintKey, hintValue⟩, isHint, kept⟩
    split at kept
    · next isKey =>
        obtain ⟨_, content, same⟩ := Option.map_eq_some_iff.1 kept
        obtain ⟨rfl, filled⟩ := Option.filter_eq_some_iff.1 content
        obtain ⟨index, line, isNumber, isLine, isMarked, found⟩ := mem_hints_iff.1 isHint
        cases same
        cases isKey
        exact ⟨by simpa using filled, index, line, isNumber, isLine, isMarked, found⟩
    · contradiction
  · rintro ⟨filled, index, line, isNumber, isLine, isMarked, found⟩
    let hint : Hint := { line := number, key, value := some value }
    have isHint : hint ∈ source.hints :=
      mem_hints_iff.2 ⟨index, line, isNumber, isLine, isMarked, found⟩
    exact ⟨hint, isHint, by simp [hint, Hint.content?, filled]⟩

theorem pairwise_valuesOf (source : SourceFile) (key : String) :
    (source.valuesOf key).Pairwise fun earlier later => earlier.1 < later.1 := by
  rw [valuesOf, List.pairwise_filterMap]
  refine source.pairwise_hints.imp ?_
  intro earlier later before first isFirst second isSecond
  split at isFirst <;> split at isSecond
  · obtain ⟨_, -, rfl⟩ := Option.map_eq_some_iff.1 isFirst
    obtain ⟨_, -, rfl⟩ := Option.map_eq_some_iff.1 isSecond
    exact before
  all_goals contradiction

theorem valuesOf_eq_nil_iff : source.valuesOf key = [] ↔ source.hasHint key = false := by
  rw [valuesOf, hasHint, List.filterMap_eq_nil_iff, List.any_eq_false]
  refine forall₂_congr fun hint _ => ?_
  by_cases isKey : hint.key = key <;> cases hint.content? <;> simp [isKey]

theorem hasHint_iff :
    source.hasHint key = true ↔ ∃ number value, source.Declares key number value := by
  rw [← Bool.not_eq_false, ← valuesOf_eq_nil_iff, List.eq_nil_iff_forall_not_mem]
  simp only [Prod.forall, mem_valuesOf_iff, not_forall, not_not]

end SourceFile

/-! ## Sources of a project -/

namespace Project

variable {project : Project} {listed : Path} {source : SourceFile}

/-- A listed file is a source when it is in a known language and can be read, under its path as seen
from the root. -/
theorem source?_eq_some_iff :
    project.source? listed = some source ↔ ∃ language bytes,
      SourceFile.classify? project.languages listed = some language ∧
      project.world.read listed = .ok bytes ∧
      source = ⟨project.files.relative listed, language, Text.Utf8.decodeLossy bytes⟩ := by
  rw [source?, World.readLossy]
  cases SourceFile.classify? project.languages listed with
  | none => simp
  | some language =>
      cases project.world.read listed with
      | error cause => simp [Except.map, Except.toOption]
      | ok bytes => simp [Except.map, Except.toOption, eq_comm]

/-- A listed path leads to a source: its extension is that of a known language, and it can be
read. -/
structure Opens (project : Project) (listed : Path) (source : SourceFile) : Prop where
  path : source.path = project.files.relative listed
  classified : SourceFile.classify? project.languages listed = some source.language
  reads : ∃ bytes, project.world.read listed = .ok bytes ∧
    source.text = Text.Utf8.decodeLossy bytes

theorem opens_iff : project.Opens listed source ↔ project.source? listed = some source := by
  rw [source?_eq_some_iff]
  constructor
  · rintro ⟨isPath, classified, bytes, reads, isText⟩
    refine ⟨source.language, bytes, classified, reads, ?_⟩
    rw [← isPath, ← isText]
  · rintro ⟨language, bytes, classified, reads, rfl⟩
    exact ⟨rfl, classified, bytes, reads, rfl⟩

theorem Opens.unique {other : SourceFile} (opens : project.Opens listed source)
    (opensOther : project.Opens listed other) : source = other := by
  rw [opens_iff] at opens opensOther
  rw [opens] at opensOther
  exact Option.some.inj opensOther

theorem mem_sources_iff :
    source ∈ project.sources ↔ ∃ listed ∈ project.files.files, project.Opens listed source := by
  simp only [sources, List.mem_filterMap, opens_iff]

/-- What is found in the sources, told by the files listed. -/
theorem flatMap_sources {α : Type} (project : Project) (judge : SourceFile → List α) :
    project.sources.flatMap judge =
      project.files.files.flatMap fun listed => (project.source? listed).toList.flatMap judge := by
  rw [sources, List.filterMap_eq_flatMap_toList, List.flatMap_assoc]

/-- What is said of a listed file: something of the source that it leads to, and nothing if it leads
to none. -/
structure IsShare (project : Project) (tells : SourceFile → List Violation → Prop) (listed : Path)
    (share : List Violation) : Prop where
  ofSource : ∀ source, project.Opens listed source → tells source share
  otherwise : (¬ ∃ source, project.Opens listed source) → share = []

/-- Violations told by the files listed: each has a share, and the shares come in the order
listed. -/
def ReportsByFile (project : Project) (tells : SourceFile → List Violation → Prop)
    (violations : List Violation) : Prop :=
  ∃ shares, violations = shares.flatten ∧
    List.Forall₂ (project.IsShare tells) project.files.files shares

variable {tells : SourceFile → List Violation → Prop} {violations : List Violation}

/-- What a judgement of one source says is told by the files listed. -/
theorem reportsByFile_flatMap {judge : SourceFile → List Violation}
    (judged : ∀ source, tells source (judge source)) :
    project.ReportsByFile tells (project.sources.flatMap judge) := by
  let share (listed : Path) : List Violation := (project.source? listed).toList.flatMap judge
  refine ⟨project.files.files.map share, ?_, ?_⟩
  · rw [flatMap_sources, List.flatMap_def]
  · rw [List.forall₂_map_right_iff, List.forall₂_same]
    intro listed _
    constructor
    · intro source opens
      simp only [share, opens_iff.1 opens, Option.toList_some, List.flatMap_singleton]
      exact judged source
    · intro closed
      have none : project.source? listed = none := by
        rw [Option.eq_none_iff_forall_ne_some]
        intro source isSource
        exact closed ⟨source, opens_iff.2 isSource⟩
      simp only [share, none, Option.toList_none, List.flatMap_nil]

/-- Nothing is found exactly when every source is in order. -/
theorem ReportsByFile.eq_nil_iff (reports : project.ReportsByFile tells violations)
    {inOrder : SourceFile → Prop}
    (quiet : ∀ source share, tells source share → (share = [] ↔ inOrder source)) :
    violations = [] ↔
      ∀ listed ∈ project.files.files, ∀ source, project.Opens listed source → inOrder source := by
  obtain ⟨shares, rfl, told⟩ := reports
  generalize project.files.files = files at told ⊢
  induction told with
  | nil => simp
  | @cons listed share rest more isShare _ ih =>
      have here : share = [] ↔ ∀ source, project.Opens listed source → inOrder source := by
        by_cases leads : ∃ source, project.Opens listed source
        · obtain ⟨source, opens⟩ := leads
          rw [quiet source share (isShare.ofSource source opens)]
          constructor
          · intro isOrdered other opensOther
            rwa [← opens.unique opensOther]
          · intro allOrdered
            exact allOrdered source opens
        · constructor
          · intro _ source opens
            exact absurd ⟨source, opens⟩ leads
          · intro _
            exact isShare.otherwise leads
      rw [List.flatten_cons, List.append_eq_nil_iff, here, ih, List.forall_mem_cons]

end Project

end RepoContract
