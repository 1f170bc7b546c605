/-
# RepoContract.Proofs.Comment.Opening: where an opener stands on its line

An opener is looked for in two ways. Within a line tracking goes to the earliest one, and where a
line mark starts at the same place the opener counts. At the front of a line the mask asks for a
line mark first, and if there is one the line is not tracked at all. So an opener that starts with a
line mark opens its block within a line and does not open it at the front of one.

The two are compared by putting some code in front of a line that starts with an opener. Code in
which no delimiter starts (`Free`) is passed over (`track_append`), and so is white space in front
of the opener, so behind them the block is opened (`track_indented`). At the front of the line it is
opened unless a line mark starts there too (`maskLine_inFront`). What is pending shows on an empty
line (`eq_none_of_onEmpty`).

`opens_anywhere` says for which lines the two files have the same mask from the next line on, and
`lineMark_hides_opener` is a block that is open in one of them only.
-/
import RepoContract.Proofs.Comment.Boundary

namespace RepoContract.Delimiters

set_option autoImplicit false

/-- Neither a line mark nor an opener starts a text. -/
def IsPlainAt (marks : Delimiters) (text : List Char) : Prop :=
  startsWith marks.line text = false ∧ marks.openerAt? text = none

instance (marks : Delimiters) (text : List Char) : Decidable (marks.IsPlainAt text) :=
  inferInstanceAs (Decidable (_ ∧ _))

/-- Neither a line mark nor an opener starts inside a text that another follows. -/
def Free (marks : Delimiters) (front behind : List Char) : Prop :=
  ∀ place < front.length, marks.IsPlainAt ((front ++ behind).drop place)

instance (marks : Delimiters) (front behind : List Char) : Decidable (marks.Free front behind) :=
  inferInstanceAs (Decidable (∀ place < front.length, _))

/-- Whether a text starts with a visible character. -/
def startsVisible (text : List Char) : Bool :=
  text.head?.any fun c => !Text.isBlank c

/-- What the block of an opener leaves pending at the end of a text that starts with it. -/
def leftBy (marks : Delimiters) (opener closer text : List Char) : Option (List Char) :=
  marks.scan (some closer) 0 (text.drop opener.length)

variable {marks : Delimiters} {pending : Option (List Char)} {c : Char}
  {front behind line opener closer : List Char}

theorem startsVisible_iff :
    startsVisible line = true ↔ ∃ c rest, line = c :: rest ∧ Text.isBlank c = false := by
  cases line <;> simp [startsVisible]

/-! ## Text without delimiters -/

theorem free_cons_iff :
    marks.Free (c :: front) behind ↔
      marks.IsPlainAt (c :: (front ++ behind)) ∧ marks.Free front behind := by
  constructor
  · intro free
    refine ⟨free 0 (Nat.succ_pos _), ?_⟩
    intro place inside
    exact free (place + 1) (Nat.succ_lt_succ inside)
  · rintro ⟨here, later⟩ place inside
    cases place with
    | zero => exact here
    | succ place => exact later place (Nat.lt_of_succ_lt_succ inside)

/-- White space is free of delimiters that start with visible characters. -/
theorem Free.of_blank (blank : ∀ c ∈ front, Text.isBlank c = true)
    (lineVisible : ∀ mark ∈ marks.line, startsVisible mark = true)
    (blockVisible : ∀ pair ∈ marks.block, startsVisible pair.1 = true)
    (behind : List Char) : marks.Free front behind := by
  have differs {delimiter : List Char} (visible : startsVisible delimiter = true) {c : Char}
      (isBlank : Text.isBlank c = true) (rest : List Char) :
      ¬ delimiter.isPrefixOf (c :: rest) = true := by
    obtain ⟨d, more, rfl, isVisible⟩ := startsVisible_iff.1 visible
    intro starts
    obtain ⟨rfl, -⟩ := List.cons_prefix_cons.1 (List.isPrefixOf_iff_prefix.1 starts)
    simp [isVisible] at isBlank
  induction front with
  | nil => exact fun place inside => absurd inside (Nat.not_lt_zero place)
  | cons c rest ih =>
      obtain ⟨here, later⟩ := List.forall_mem_cons.1 blank
      refine free_cons_iff.2 ⟨⟨?_, ?_⟩, ih later⟩
      · apply List.any_eq_false.2
        intro mark isMark
        exact differs (lineVisible mark isMark) here _
      · apply List.find?_eq_none.2
        intro pair isDeclared
        exact differs (blockVisible pair isDeclared) here _

/-- **Tracking passes over a text in which no delimiter starts.** -/
theorem track_append (solid : marks.Solid) (free : marks.Free front behind) :
    marks.track (front ++ behind) = marks.track behind := by
  induction front with
  | nil => rfl
  | cons c rest ih =>
      obtain ⟨⟨noMark, noOpener⟩, later⟩ := free_cons_iff.1 free
      rw [List.cons_append, track_cons solid noOpener noMark, ih later]

/-- Tracking follows the block of an opener in front. -/
theorem track_eq_leftBy (solid : marks.Solid)
    (opens : marks.openerAt? line = some (opener, closer)) :
    marks.track line = marks.leftBy opener closer line := by
  have takes : closer ≠ [] := (solid _ (List.mem_of_find?_eq_some opens)).2
  rw [track_opener solid opens, leftBy, scan_some takes]
  cases Text.after? closer (line.drop opener.length) with
  | none => rfl
  | some rest => exact (scan_none solid rest).symm

/-! ## The two ways -/

/-- At the front of a line an opener opens its block, unless a line mark starts there too. -/
theorem maskLine_inFront (solid : marks.Solid)
    (opens : marks.openerAt? (Text.trimStart line) = some (opener, closer)) :
    marks.maskLine none line =
      (true, if startsWith marks.line (Text.trimStart line) then none
        else marks.leftBy opener closer (Text.trimStart line)) := by
  have filled : (Text.trimStart line).isEmpty = false := by
    rw [List.isEmpty_eq_false_iff]
    intro empty
    have starts : opener.isPrefixOf [] = true := by
      rw [← empty]
      simpa using List.find?_some opens
    exact (solid _ (List.mem_of_find?_eq_some opens)).1 (by simpa using starts)
  simp only [maskLine, filled, startsWith_openers, opens, track_eq_leftBy solid opens]
  cases startsWith marks.line (Text.trimStart line) <;> rfl

/-- A line behind code in which no delimiter starts is tracked as it stands. -/
theorem maskLine_behindCode (solid : marks.Solid) (isCode : startsVisible front = true)
    (free : marks.Free front line) :
    marks.maskLine none (front ++ line) = (false, marks.track line) := by
  obtain ⟨c, rest, rfl, visible⟩ := startsVisible_iff.1 isCode
  have untrimmed : Text.trimStart (c :: rest ++ line) = c :: rest ++ line :=
    List.dropWhile_cons_of_neg (by simp [visible])
  obtain ⟨⟨noMark, noOpener⟩, -⟩ := free_cons_iff.1 free
  rw [← List.cons_append] at noMark noOpener
  simp only [maskLine, untrimmed, noMark, startsWith_openers, noOpener, track_append solid free]
  rfl

/-- **Within a line an opener opens its block**, also where a line mark starts at its place. -/
theorem track_indented (solid : marks.Solid)
    (opens : marks.openerAt? (Text.trimStart line) = some (opener, closer))
    (freeBlanks : marks.Free (line.takeWhile Text.isBlank) (Text.trimStart line)) :
    marks.track line = marks.leftBy opener closer (Text.trimStart line) := by
  have isLine : line.takeWhile Text.isBlank ++ Text.trimStart line = line :=
    List.takeWhile_append_dropWhile
  calc marks.track line
      = marks.track (line.takeWhile Text.isBlank ++ Text.trimStart line) := by rw [isLine]
    _ = marks.track (Text.trimStart line) := track_append solid freeBlanks
    _ = marks.leftBy opener closer (Text.trimStart line) := track_eq_leftBy solid opens

/-! ## The lines behind -/

/-- The lines behind one that no block is pending on are judged by what it leaves pending. -/
theorem drop_mask {text : List Char} {before after : List (List Char)}
    (ends : marks.pendingAfter before = none) (isText : Text.lines text = before ++ line :: after) :
    (marks.mask text).drop (before.length + 1) =
      marks.maskFrom (marks.maskLine none line).2 after := by
  have noneLeft : marks.pendingFrom none before = none := ends
  rw [mask, isText, maskFrom_append, noneLeft, maskFrom, ← length_maskFrom marks none before,
    ← List.drop_drop, List.drop_left]
  rfl

/-- An empty line is a comment only if a block is pending on it. -/
theorem eq_none_of_onEmpty (same : marks.maskFrom none [[]] = marks.maskFrom pending [[]]) :
    pending = none := by
  cases pending with
  | none => rfl
  | some closer =>
      have isComment : (marks.maskLine (some closer) []).1 = true := (maskLine_fst _ _).2 (.inl rfl)
      have onEmpty : (marks.maskLine none []).1 = (marks.maskLine (some closer) []).1 :=
        List.head_eq_of_cons_eq same
      rw [isComment] at onEmpty
      cases onEmpty

/-- **An opener opens its block wherever it stands, unless a line mark starts at its place.** Let a
line start with an opener, and put code in front of it in which no delimiter starts. Without the
code the line leaves pending what the block leaves, but nothing when a line mark starts at the
opener. With the code the line is tracked as it stands, and that is what the block leaves in either
case, if no delimiter starts in the white space in front of the opener. Then two files that differ
by the code, on a line on which no block is pending, have the same mask from the next line on
exactly if no line mark starts at the opener or the block leaves nothing pending. -/
theorem opens_anywhere (solid : marks.Solid) (noFeed : '\n' ∉ front ++ line)
    (opens : marks.openerAt? (Text.trimStart line) = some (opener, closer))
    (isCode : startsVisible front = true) (free : marks.Free front line) :
    let left := marks.leftBy opener closer (Text.trimStart line)
    marks.maskLine none line =
        (true, if startsWith marks.line (Text.trimStart line) then none else left) ∧
      marks.maskLine none (front ++ line) = (false, marks.track line) ∧
      (marks.Free (line.takeWhile Text.isBlank) (Text.trimStart line) →
        marks.track line = left ∧
        ((∀ (before after : List (List Char)) (one other : List Char),
            marks.pendingAfter before = none → Text.lines one = before ++ line :: after →
            Text.lines other = before ++ (front ++ line) :: after →
            (marks.mask one).drop (before.length + 1) =
              (marks.mask other).drop (before.length + 1)) ↔
          (startsWith marks.line (Text.trimStart line) = true → left = none))) := by
  intro left
  have inFront := maskLine_inFront solid opens
  have behindCode := maskLine_behindCode solid isCode free
  refine ⟨inFront, behindCode, ?_⟩
  intro freeBlanks
  have tracked : marks.track line = left := track_indented solid opens freeBlanks
  rw [tracked] at behindCode
  refine ⟨tracked, ?_, ?_⟩
  · intro same starts
    -- an empty line behind them tells the two files apart
    have noFeeds (first : List Char) (isFirst : '\n' ∉ first) :
        ∃ text, Text.lines text = [] ++ first :: [[]] := by
      apply Text.exists_lines_eq
      simp [isFirst]
    obtain ⟨one, isOne⟩ := noFeeds line (fun isIn => noFeed (List.mem_append_right _ isIn))
    obtain ⟨other, isOther⟩ := noFeeds (front ++ line) noFeed
    have onEmpty := same [] [[]] one other rfl isOne isOther
    rw [drop_mask rfl isOne, drop_mask rfl isOther, inFront, if_pos starts, behindCode] at onEmpty
    exact eq_none_of_onEmpty onEmpty
  · intro ended before after one other ends isOne isOther
    have sameLeft : (marks.maskLine none line).2 = left := by
      rw [inFront]
      split
      · next starts => exact (ended starts).symm
      · rfl
    rw [drop_mask ends isOne, drop_mask ends isOther, behindCode, sameLeft]

/-- A delimiter that starts with white space is not seen at the front of a line, which is trimmed: a
line mark hides the opener behind code only. -/
example :
    let marks : Delimiters := ⟨[" /".toList], [("/*".toList, "*/".toList)]⟩
    marks.maskLine none " /* a".toList = (true, some "*/".toList) ∧
      marks.maskLine none "x /* a".toList = (false, none) := by
  decide +kernel

/-- A line mark with which one of two openers starts. -/
def dashes : Delimiters :=
  ⟨["--".toList], [("--[[".toList, "]]".toList), ("(*".toList, "*)".toList)]⟩

/-- An opener that starts with no line mark opens its block behind white space and behind code. -/
theorem opens_anywhere_indented :
    let line := "\t(* a ]] b".toList
    let front := "x = 1;".toList
    dashes.Solid ∧ dashes.Free front line ∧
      dashes.maskLine none (front ++ line) = (false, some "*)".toList) ∧
      dashes.maskLine none line = (true, some "*)".toList) ∧
      (dashes.mask (line ++ "\nf()\n*)\n".toList)).drop 1 = [true, true] ∧
      (dashes.mask (front ++ line ++ "\nf()\n*)\n".toList)).drop 1 = [true, true] := by
  intro line front
  have solid : dashes.Solid := by decide
  have free : dashes.Free front line := by decide +kernel
  have freeBlanks : dashes.Free (line.takeWhile Text.isBlank) (Text.trimStart line) :=
    .of_blank (fun c isIn => List.mem_takeWhile_imp isIn) (by decide +kernel)
      (by decide +kernel) _
  have opens : dashes.openerAt? (Text.trimStart line) = some ("(*".toList, "*)".toList) := by
    decide +kernel
  obtain ⟨inFront, behindCode, indented⟩ :=
    opens_anywhere solid (by decide +kernel) opens (by decide +kernel) free
  obtain ⟨tracked, same⟩ := indented freeBlanks
  rw [tracked] at behindCode
  have agree := same.2 (by decide +kernel) [] ["f()".toList, "*)".toList]
    (line ++ "\nf()\n*)\n".toList) (front ++ line ++ "\nf()\n*)\n".toList) rfl
    (by decide +kernel) (by decide +kernel)
  have seen : (dashes.mask (line ++ "\nf()\n*)\n".toList)).drop 1 = [true, true] := by
    decide +kernel
  exact ⟨solid, free, behindCode.trans (by decide +kernel), inFront.trans (by decide +kernel),
    seen, agree.symm.trans seen⟩

/-- **A line mark hides an opener that starts with it.** At the front of a line the block is not
opened and the call on the next line is code; behind an assignment it is opened and the call is a
comment. -/
theorem lineMark_hides_opener :
    let line := "--[[ a".toList
    let front := "x = 1 ".toList
    let after := "\nf()\n]]\n".toList
    dashes.Solid ∧ (∀ mark ∈ dashes.line, mark ≠ []) ∧
      dashes.openerAt? (Text.trimStart line) = some ("--[[".toList, "]]".toList) ∧
      startsVisible front = true ∧ dashes.Free front line ∧
      (dashes.maskLine none line).2 = none ∧
      (dashes.maskLine none (front ++ line)).2 = some "]]".toList ∧
      dashes.mask (line ++ after) = [true, false, false] ∧
      dashes.mask (front ++ line ++ after) = [false, true, true] := by
  decide +kernel

end RepoContract.Delimiters
