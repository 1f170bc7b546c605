/-
# RepoContract.Proofs.Comment.Boundary: files cut where no block is pending

The mask of a file hands a pending block from line to line and nothing else, so where no block is
pending the lines behind are judged as if the file began with them (`Delimiters.judged_append`).
Hints and code lines are read from the judged lines one by one, and a reader that takes the number
of a line as it comes can be moved with its lines (`filterMap_judged_append`,
`filterMap_judged_insert`).

`SourceFile.compose_at_boundary` says both for the built-in languages: a file cut at such a place
has the mask, the hints and the code lines of its parts, and a line comment without a hint that is
put in there moves what is behind it down by one line and changes nothing else. The example behind
it is a file cut inside a block.
-/
import RepoContract.Proofs.Hint
import RepoContract.Proofs.Rule.Scope

namespace RepoContract

set_option autoImplicit false

/-! ## Numbers of lines -/

/-- The number of a line where another one is put in behind the first `count`. -/
def makeRoom (count number : Nat) : Nat :=
  if number ≤ count then number else number + 1

/-- The hint on a line with another number. -/
def Hint.renumber (move : Nat → Nat) (hint : Hint) : Hint :=
  { hint with line := move hint.line }

/-- The violation at a line with another number. -/
def Violation.renumber (move : Nat → Nat) (violation : Violation) : Violation :=
  { violation with line := violation.line.map move }

/-- The numbered line with another number. -/
def renumberLine (move : Nat → Nat) (numbered : Nat × List Char) : Nat × List Char :=
  (move numbered.1, numbered.2)

/-! ## Judged lines -/

namespace Delimiters

variable {marks : Delimiters} {front behind : List (List Char)} {comment : List Char}

/-- Some lines with their numbers, each with whether it is a comment. -/
def judged (marks : Delimiters) (lines : List (List Char)) : List ((Nat × List Char) × Bool) :=
  (lines.zipIdx.map fun (line, index) => (index + 1, line)).zip (marks.maskFrom none lines)

/-- The judged line with another number. -/
def renumberJudged (move : Nat → Nat) (item : (Nat × List Char) × Bool) :
    (Nat × List Char) × Bool :=
  (renumberLine move item.1, item.2)

theorem maskFrom_append (marks : Delimiters) (pending : Option (List Char))
    (front behind : List (List Char)) :
    marks.maskFrom pending (front ++ behind) =
      marks.maskFrom pending front ++ marks.maskFrom (marks.pendingFrom pending front) behind := by
  induction front generalizing pending with
  | nil => rfl
  | cons line front ih =>
      rw [List.cons_append, maskFrom, maskFrom, ih, List.cons_append]
      rfl

theorem number_of_mem_judged {lines : List (List Char)} {item : (Nat × List Char) × Bool}
    (isJudged : item ∈ marks.judged lines) : 1 ≤ item.1.1 ∧ item.1.1 ≤ lines.length := by
  obtain ⟨⟨line, index⟩, isLine, isNumbered⟩ := List.mem_map.1 (List.of_mem_zip isJudged).1
  have inside := List.snd_lt_of_mem_zipIdx isLine
  rw [← isNumbered]
  exact ⟨Nat.succ_pos index, inside⟩

/-- **Where no block is pending, the lines behind are judged by themselves.** -/
theorem judged_append (ends : marks.pendingAfter front = none) (behind : List (List Char)) :
    marks.judged (front ++ behind) =
      marks.judged front ++
        (marks.judged behind).map (renumberJudged (· + front.length)) := by
  have noneLeft : marks.pendingFrom none front = none := ends
  have sameLength : (front.zipIdx.map fun (line, index) => (index + 1, line)).length =
      (marks.maskFrom none front).length := by
    rw [List.length_map, List.length_zipIdx, length_maskFrom]
  have moved : ((behind.zipIdx (0 + front.length)).map fun (line, index) => (index + 1, line)) =
      (behind.zipIdx.map fun (line, index) => (index + 1, line)).map
        (renumberLine (· + front.length)) := by
    rw [List.zipIdx_eq_map_add, List.map_map, List.map_map]
    refine List.map_congr_left fun _ _ => ?_
    simp only [Function.comp_apply, renumberLine]
    congr 1
    omega
  rw [judged, maskFrom_append, noneLeft, List.zipIdx_append, List.map_append,
    List.zip_append sameLength, moved]
  congr 1
  exact List.zip_map_left ..

/-- A comment that leaves nothing pending is one more judged line. -/
theorem judged_insert (ends : marks.pendingAfter front = none)
    (isComment : marks.maskLine none comment = (true, none)) (behind : List (List Char)) :
    marks.judged (front ++ comment :: behind) =
      marks.judged front ++ ((front.length + 1, comment), true) ::
        (marks.judged behind).map (renumberJudged (· + (front.length + 1))) := by
  have alone : marks.judged [comment] = [((1, comment), true)] := by
    rw [judged, maskFrom, isComment]
    rfl
  have leaves : marks.pendingAfter [comment] = none := congrArg Prod.snd isComment
  have onward := judged_append leaves behind
  rw [List.singleton_append] at onward
  rw [judged_append ends, onward, alone, List.singleton_append, List.map_cons, List.map_map]
  congr 2
  · simp only [renumberJudged, renumberLine, Nat.add_comm]
  · refine List.map_congr_left fun _ _ => ?_
    simp only [Function.comp_apply, renumberJudged, renumberLine, List.length_singleton]
    congr 2
    omega

/-- Making room leaves the lines in front and moves those behind by one more. -/
theorem judged_makeRoom (ends : marks.pendingAfter front = none) (behind : List (List Char)) :
    (marks.judged (front ++ behind)).map (renumberJudged (makeRoom front.length)) =
      marks.judged front ++
        (marks.judged behind).map (renumberJudged (· + (front.length + 1))) := by
  rw [judged_append ends, List.map_append, List.map_map]
  congr 1
  · refine (List.map_congr_left fun item isJudged => ?_).trans (List.map_id _)
    have inFront := (number_of_mem_judged isJudged).2
    simp only [renumberJudged, renumberLine, makeRoom, if_pos inFront, id_eq]
  · refine List.map_congr_left fun item isJudged => ?_
    have isBehind : ¬ item.1.1 + front.length ≤ front.length := by
      have := (number_of_mem_judged isJudged).1
      omega
    have moved : makeRoom front.length (item.1.1 + front.length) =
        item.1.1 + (front.length + 1) := if_neg isBehind
    simp only [Function.comp_apply, renumberJudged, renumberLine, moved]

/-! ## Readers of judged lines -/

section Readers

variable {α : Type} {read : (Nat × List Char) × Bool → Option α} {renumber : (Nat → Nat) → α → α}

/-- What is read from moved lines is what was read from them, moved. -/
theorem filterMap_renumberJudged
    (moves : ∀ move item, read (renumberJudged move item) = (read item).map (renumber move))
    (move : Nat → Nat) (items : List ((Nat × List Char) × Bool)) :
    (items.map (renumberJudged move)).filterMap read =
      (items.filterMap read).map (renumber move) := by
  rw [List.filterMap_map, List.map_filterMap]
  exact List.filterMap_congr fun item _ => moves move item

/-- **Lines cut where no block is pending are read part by part.** -/
theorem filterMap_judged_append
    (moves : ∀ move item, read (renumberJudged move item) = (read item).map (renumber move))
    (ends : marks.pendingAfter front = none) (behind : List (List Char)) :
    (marks.judged (front ++ behind)).filterMap read =
      (marks.judged front).filterMap read ++
        ((marks.judged behind).filterMap read).map (renumber (· + front.length)) := by
  rw [judged_append ends, List.filterMap_append, filterMap_renumberJudged moves]

/-- **A comment from which nothing is read makes room for itself and changes nothing else.** -/
theorem filterMap_judged_insert
    (moves : ∀ move item, read (renumberJudged move item) = (read item).map (renumber move))
    (ends : marks.pendingAfter front = none)
    (isComment : marks.maskLine none comment = (true, none))
    (silent : read ((front.length + 1, comment), true) = none) (behind : List (List Char)) :
    (marks.judged (front ++ comment :: behind)).filterMap read =
      ((marks.judged (front ++ behind)).filterMap read).map (renumber (makeRoom front.length)) := by
  rw [← filterMap_renumberJudged moves, judged_makeRoom ends, judged_insert ends isComment,
    List.filterMap_append, List.filterMap_append, List.filterMap_cons_none silent]

end Readers

/-- The hint that is read from a judged line. -/
def hintOf? (marks : Delimiters) (item : (Nat × List Char) × Bool) : Option Hint :=
  if item.2 then Hint.ofLine? (marks.block.map (·.2)) item.1.1 item.1.2 else none

/-- The code line that a judged line is. -/
def codeOf? (item : (Nat × List Char) × Bool) : Option (Nat × List Char) :=
  if item.2 then none else some item.1

theorem hintOf?_renumberJudged (marks : Delimiters) (move : Nat → Nat)
    (item : (Nat × List Char) × Bool) :
    marks.hintOf? (renumberJudged move item) = (marks.hintOf? item).map (Hint.renumber move) := by
  obtain ⟨⟨number, line⟩, isComment⟩ := item
  cases isComment with
  | false => rfl
  | true =>
      simp only [hintOf?, renumberJudged, renumberLine, if_true, Hint.ofLine?, Option.map_map]
      rfl

theorem codeOf?_renumberJudged (move : Nat → Nat) (item : (Nat × List Char) × Bool) :
    codeOf? (renumberJudged move item) = (codeOf? item).map (renumberLine move) := by
  obtain ⟨numbered, isComment⟩ := item
  cases isComment <;> rfl

/-- A line that starts with a line mark is a comment and leaves nothing pending. -/
theorem maskLine_of_startsWith (take : ∀ mark ∈ marks.line, mark ≠ [])
    (starts : startsWith marks.line (Text.trimStart comment) = true) :
    marks.maskLine none comment = (true, none) := by
  obtain ⟨mark, isMark, isPrefix⟩ := List.any_eq_true.1 starts
  have filled : (Text.trimStart comment).isEmpty = false := by
    rw [List.isEmpty_eq_false_iff]
    intro empty
    rw [empty] at isPrefix
    exact take mark isMark (List.prefix_nil.1 (List.isPrefixOf_iff_prefix.1 isPrefix))
  simp only [maskLine, filled, starts]
  rfl

end Delimiters

namespace SourceFile

/-! ## Files -/

/-- A file shows what two others show, the second below the first. -/
structure Joins (whole first second : SourceFile) : Prop where
  mask : whole.mask = first.mask ++ second.mask
  hints : whole.hints = first.hints ++
    second.hints.map (Hint.movedBy (Text.lines first.text).length)
  codeLines : whole.codeLines = first.codeLines ++
    second.codeLines.map (renumberLine (· + (Text.lines first.text).length))

/-- A file shows what another does, at lines with other numbers. -/
structure Renumbers (move : Nat → Nat) (first second : SourceFile) : Prop where
  path : second.path = first.path
  language : second.language = first.language
  hints : second.hints = first.hints.map (Hint.renumber move)
  codeLines : second.codeLines = first.codeLines.map (renumberLine move)

variable {first second whole : SourceFile} {move : Nat → Nat} {front behind : List (List Char)}

theorem hints_eq (source : SourceFile) :
    source.hints = (source.language.comments.judged (Text.lines source.text)).filterMap
      source.language.comments.hintOf? := rfl

theorem codeLines_eq (source : SourceFile) :
    source.codeLines = (source.language.comments.judged (Text.lines source.text)).filterMap
      Delimiters.codeOf? := rfl

/-- The values that hints give keep their order. -/
theorem Renumbers.valuesOf (renumbers : Renumbers move first second) (key : String) :
    second.valuesOf key = (first.valuesOf key).map fun (number, value) => (move number, value) := by
  rw [SourceFile.valuesOf, SourceFile.valuesOf, renumbers.hints, List.filterMap_map,
    List.map_filterMap]
  refine List.filterMap_congr fun hint _ => ?_
  have sameKey : (hint.renumber move).key = hint.key := rfl
  have sameContent : (hint.renumber move).content? = hint.content? := rfl
  simp only [Function.comp_apply, sameKey, sameContent]
  split
  · rw [Option.map_map]
    rfl
  · rfl

/-- What is said of malformed hints is said at the other lines. -/
theorem Renumbers.judgeHints (renumbers : Renumbers move first second) (contract : Contract) :
    Rule.judgeHints contract second =
      (Rule.judgeHints contract first).map (Violation.renumber move) := by
  rw [Rule.judgeHints, Rule.judgeHints, renumbers.hints, renumbers.path, List.filterMap_map,
    List.map_filterMap]
  refine List.filterMap_congr fun hint _ => ?_
  have sameProblem : (hint.renumber move).problem? = hint.problem? := rfl
  simp only [Function.comp_apply, sameProblem, Option.map_map]
  cases hint.problem? with
  | none => rfl
  | some problem => cases problem <;> rfl

/-- What is forbidden is reported at the other lines. -/
theorem Renumbers.judgeForbidden (renumbers : Renumbers move first second) (contract : Contract) :
    Rule.judgeForbidden contract second =
      (Rule.judgeForbidden contract first).map (Violation.renumber move) := by
  rw [Rule.judgeForbidden, Rule.judgeForbidden, renumbers.codeLines, List.flatMap_map,
    List.map_flatMap]
  refine List.flatMap_congr fun numbered _ => ?_
  simp only [Rule.judgeLine, renumberLine, renumbers.path, renumbers.language, List.map_map]
  rfl

/-- A file cut where no block is pending shows what its parts show. -/
theorem joins_of_lines {path : Path} {language : Language} {first second whole : List Char}
    (ends : language.comments.pendingAfter (Text.lines first) = none)
    (isWhole : Text.lines whole = Text.lines first ++ Text.lines second) :
    Joins ⟨path, language, whole⟩ ⟨path, language, first⟩ ⟨path, language, second⟩ where
  mask := by
    have noneLeft : language.comments.pendingFrom none (Text.lines first) = none := ends
    simp only [SourceFile.mask, Delimiters.mask]
    rw [isWhole, Delimiters.maskFrom_append, noneLeft]
  hints := by
    simp only [hints_eq]
    rw [isWhole, Delimiters.filterMap_judged_append
      language.comments.hintOf?_renumberJudged ends]
    rfl
  codeLines := by
    simp only [codeLines_eq]
    rw [isWhole, Delimiters.filterMap_judged_append Delimiters.codeOf?_renumberJudged ends]

/-- A comment without a hint that is put in where no block is pending makes room for itself. -/
theorem renumbers_of_lines {path : Path} {language : Language} {whole commented comment : List Char}
    (ends : language.comments.pendingAfter front = none)
    (isComment : language.comments.maskLine none comment = (true, none))
    (plain : ¬ Hint.sign <:+: comment) (isWhole : Text.lines whole = front ++ behind)
    (isCommented : Text.lines commented = front ++ comment :: behind) :
    Renumbers (makeRoom front.length) ⟨path, language, whole⟩ ⟨path, language, commented⟩ where
  path := rfl
  language := rfl
  hints := by
    have silent : language.comments.hintOf? ((front.length + 1, comment), true) = none :=
      Hint.ofLine?_of_plain plain _
    simp only [hints_eq]
    rw [isWhole, isCommented, Delimiters.filterMap_judged_insert
      language.comments.hintOf?_renumberJudged ends isComment silent]
  codeLines := by
    simp only [codeLines_eq]
    rw [isWhole, isCommented, Delimiters.filterMap_judged_insert
      Delimiters.codeOf?_renumberJudged ends isComment rfl]

/-- **Files can be cut where no block is pending.** Any lines without line feeds are those of a
text. In a built-in language, where the scanner holds nothing pending after some lines, a file with
these and others behind them has the mask, the hints and the code lines of the first and then those
of the others, moved by as many lines. A line that starts with a line mark and holds no sign of a
hint can be put in there: hints and code lines stay as they are, and those behind it move down by
one, as does what the rules on hints and on forbidden patterns report of them. -/
theorem compose_at_boundary {language : Language}
    (isBuiltIn : language ∈ LanguageTable.builtInLanguages) (path : Path)
    {front : List (List Char)} (ends : language.comments.scanLines front = none)
    (behind : List (List Char)) :
    let file (text : List Char) : SourceFile := ⟨path, language, text⟩
    (∀ lines : List (List Char), (∀ line ∈ lines, '\n' ∉ line) →
      ∃ text, Text.lines text = lines) ∧
    (∀ first second whole, Text.lines first = front → Text.lines second = behind →
      Text.lines whole = front ++ behind → Joins (file whole) (file first) (file second)) ∧
    ∀ comment, Delimiters.startsWith language.comments.line (Text.trimStart comment) = true →
      ¬ Hint.sign <:+: comment →
      ∀ whole commented, Text.lines whole = front ++ behind →
        Text.lines commented = front ++ comment :: behind →
        Renumbers (makeRoom front.length) (file whole) (file commented) ∧
        (∀ key, (file commented).valuesOf key = ((file whole).valuesOf key).map
          fun (number, value) => (makeRoom front.length number, value)) ∧
        ∀ id ∈ ["inline-hints", "forbidden-patterns"],
          ∃ judge : Contract → SourceFile → List Violation,
            (∀ project, (RuleTable.builtIn.rules.find? (·.id = id)).map (·.check project) =
              some (.found (project.sources.flatMap (judge project.contract)))) ∧
            ∀ contract, judge contract (file commented) =
              (judge contract (file whole)).map (Violation.renumber (makeRoom front.length)) := by
  intro file
  have noneLeft : language.comments.pendingAfter front = none := by
    rw [Delimiters.pendingAfter_eq_scanLines (Delimiters.builtIn_apart language isBuiltIn), ends]
  refine ⟨fun _ => Text.exists_lines_eq, ?_, ?_⟩
  · rintro first second whole rfl rfl isWhole
    exact joins_of_lines noneLeft isWhole
  · intro comment starts plain whole commented isWhole isCommented
    have isComment := Delimiters.maskLine_of_startsWith
      (fun mark isMark => ((Delimiters.builtIn_clear language isBuiltIn).1 mark isMark).1) starts
    have renumbers : Renumbers (makeRoom front.length) (file whole) (file commented) :=
      renumbers_of_lines noneLeft isComment plain isWhole isCommented
    refine ⟨renumbers, renumbers.valuesOf, fun id isId => ?_⟩
    rw [List.mem_cons, List.mem_singleton] at isId
    rcases isId with rfl | rfl
    · exact ⟨Rule.judgeHints, fun _ => rfl, renumbers.judgeHints⟩
    · exact ⟨Rule.judgeForbidden, fun project => congrArg some (Rule.checkForbidden_eq project),
        renumbers.judgeForbidden⟩

/-- Behind a block that is closed in front of some code, a note moves the hint and the code below it
by one line. -/
theorem compose_at_boundary_noted :
    let file (text : String) : SourceFile := ⟨Path.ofString "a.js",
      ⟨"javascript", ["js", "mjs", "cjs", "jsx"], LanguageTable.slashComments,
        LanguageTable.scriptExport⟩, text.toList⟩
    (file "/* a\n */ let x;\n// @aocs-rule: x\neval(1)").Joins (file "/* a\n */ let x;\n")
        (file "// @aocs-rule: x\neval(1)") ∧
      (file "/* a\n */ let x;\n// @aocs-rule: x\neval(1)").hints = [⟨3, "rule", some "x"⟩] ∧
      (file "/* a\n */ let x;\n\t// note\n// @aocs-rule: x\neval(1)").hints =
        [⟨4, "rule", some "x"⟩] := by
  intro file
  have isBuiltIn : (file "").language ∈ LanguageTable.builtInLanguages := List.mem_cons_self
  let front := ["/* a".toList, " */ let x;".toList]
  let behind := ["// @aocs-rule: x".toList, "eval(1)".toList]
  have ends : (file "").language.comments.scanLines front = none := by decide +kernel
  obtain ⟨-, joins, inserts⟩ := compose_at_boundary isBuiltIn (Path.ofString "a.js") ends behind
  have hints : (file "/* a\n */ let x;\n// @aocs-rule: x\neval(1)").hints =
      [⟨3, "rule", some "x"⟩] := by
    decide +kernel
  refine ⟨joins _ _ _ (by decide +kernel) (by decide +kernel) (by decide +kernel), hints, ?_⟩
  obtain ⟨renumbers, -⟩ := inserts "\t// note".toList (by decide +kernel) (by decide +kernel)
    "/* a\n */ let x;\n// @aocs-rule: x\neval(1)".toList
    "/* a\n */ let x;\n\t// note\n// @aocs-rule: x\neval(1)".toList (by decide +kernel)
    (by decide +kernel)
  exact renumbers.hints.trans (congrArg _ hints)

/-- Inside a block the line behind is a comment, and by itself it is code. -/
example :
    LanguageTable.slashComments.mask "/*\nlet x;".toList ≠
      LanguageTable.slashComments.mask "/*\n".toList ++
        LanguageTable.slashComments.mask "let x;".toList := by
  decide +kernel

end SourceFile

end RepoContract
