/-
# RepoContract.Proofs.Comment.Mask: the mask of a text is what a scanner sees

The mask is computed line by line, with the pending block handed on. What is pending is always
the closer of a declared block (`Declared`), so it takes text and the scanner can go to it; by
this invariant the mask and the scanner hold the same block pending after every line
(`pendingAfter_eq_scanLines`). A line is then a comment in exactly two ways: a block is pending on
it, or its first visible text is a line mark or an opener (`maskLine_fst`).

`mask_refines_scan` puts this together for every text: tracking ends, every cut is inside the
text, there is one verdict per line, and the verdicts and the pending blocks are the scanner's.
-/
import Mathlib.Data.List.Induction
import RepoContract.Proofs.Comment.Scanner

namespace RepoContract.Delimiters

set_option autoImplicit false

/-- What is pending, if anything, is the closer of a declared block. -/
def Declared (marks : Delimiters) (pending : Option (List Char)) : Prop :=
  ∀ closer ∈ pending, ∃ opener, (opener, closer) ∈ marks.block

variable {marks : Delimiters} {pending : Option (List Char)} {text : List Char}

theorem declared_none (marks : Delimiters) : marks.Declared none := by
  simp [Declared]

theorem Declared.takes {closer : List Char} (declared : marks.Declared (some closer))
    (solid : marks.Solid) : closer ≠ [] := by
  obtain ⟨opener, member⟩ := declared closer rfl
  exact (solid _ member).2

/-- The scanner keeps what is pending declared. -/
theorem scan_declared (declared : marks.Declared pending) (skip : Nat) (text : List Char) :
    marks.Declared (marks.scan pending skip text) := by
  fun_induction scan marks pending skip text with
  | case1 pending skip => exact declared
  | case2 pending skip c rest ih => exact ih declared
  | case3 closer c rest ends ih => exact ih (declared_none marks)
  | case4 closer c rest goesOn ih => exact ih declared
  | case5 c rest opener closer starts ih =>
      have member : (opener, closer) ∈ marks.block := List.mem_of_find?_eq_some starts
      exact ih (by rintro _ ⟨⟩; exact ⟨opener, member⟩)
  | case6 c rest noOpener starts => exact declared_none marks
  | case7 c rest noOpener noMark ih => exact ih (declared_none marks)

theorem startsWith_openers (marks : Delimiters) (text : List Char) :
    startsWith (marks.block.map (·.1)) text = (marks.openerAt? text).isSome := by
  rw [Bool.eq_iff_iff, startsWith, List.any_map, List.any_eq_true, openerAt?, List.find?_isSome]
  rfl

/-- A text that starts with a line mark starts with no opener. -/
theorem Apart.openerAt?_eq_none (apart : marks.Apart) (starts : startsWith marks.line text = true) :
    marks.openerAt? text = none := by
  obtain ⟨mark, member, markHere⟩ := List.any_eq_true.1 starts
  apply List.find?_eq_none.2
  intro pair declared openerHere
  have shared := List.prefix_or_prefix_of_prefix (List.isPrefixOf_iff_prefix.1 markHere)
    (List.isPrefixOf_iff_prefix.1 openerHere)
  obtain ⟨notMark, notOpener⟩ := apart.2 mark member pair declared
  exact shared.elim notMark notOpener

theorem Apart.track_eq_none (apart : marks.Apart) (starts : startsWith marks.line text = true) :
    marks.track text = none := by
  match text with
  | [] => exact track_nil apart.1
  | c :: rest => exact track_lineMark (apart.openerAt?_eq_none starts) starts

/-- **One line leaves the same block pending in the mask and in the scanner.** -/
theorem maskLine_snd (apart : marks.Apart) (declared : marks.Declared pending) (line : List Char) :
    (marks.maskLine pending line).2 = marks.scan pending 0 (Text.trimStart line) := by
  cases pending with
  | some closer =>
      rw [scan_some (declared.takes apart.1)]
      simp only [maskLine]
      cases Text.after? closer (Text.trimStart line) with
      | none => rfl
      | some rest => exact (scan_none apart.1 rest).symm
  | none =>
      rw [scan_none apart.1]
      simp only [maskLine]
      split
      · rename_i empty
        rw [List.isEmpty_iff.1 empty, track_nil apart.1]
      · split
        · rename_i starts
          exact (apart.track_eq_none starts).symm
        · rfl

/-- A line is a comment when a block is pending on it or it starts with a line mark or an
opener. -/
theorem maskLine_fst (pending : Option (List Char)) (line : List Char) :
    (marks.maskLine pending line).1 = true ↔
      pending.isSome = true ∨ Text.trimStart line ≠ [] ∧
        (startsWith marks.line (Text.trimStart line) = true ∨
          (marks.openerAt? (Text.trimStart line)).isSome = true) := by
  cases pending with
  | some closer =>
      simp only [maskLine]
      split <;> simp
  | none =>
      simp only [maskLine, startsWith_openers]
      split
      · simp_all
      · split <;> simp_all

theorem scanLines_declared (lines : List (List Char)) : marks.Declared (marks.scanLines lines) := by
  unfold scanLines
  induction lines using List.reverseRecOn with
  | nil => exact declared_none marks
  | append_singleton before line ih =>
      rw [List.foldl_concat]
      exact scan_declared ih 0 _

/-- **After every line the mask and the scanner hold the same block pending.** -/
theorem pendingAfter_eq_scanLines (apart : marks.Apart) (lines : List (List Char)) :
    marks.pendingAfter lines = marks.scanLines lines := by
  induction lines using List.reverseRecOn with
  | nil => rfl
  | append_singleton before line ih =>
      -- what is pending in front of the line is declared, so its closer can be looked for
      rw [pendingAfter, scanLines, List.foldl_concat, List.foldl_concat, ← pendingAfter,
        ← scanLines, ih]
      exact maskLine_snd apart (scanLines_declared before) line

theorem getElem?_maskFrom (pending : Option (List Char)) (lines : List (List Char)) (index : Nat) :
    (marks.maskFrom pending lines)[index]? =
      lines[index]?.map fun line =>
        (marks.maskLine ((lines.take index).foldl
          (fun pending line => (marks.maskLine pending line).2) pending) line).1 := by
  induction lines generalizing pending index with
  | nil => rfl
  | cons line rest ih =>
      cases index with
      | zero => rfl
      | succ index => simpa [maskFrom] using ih _ index

theorem getElem?_mask (text : List Char) (index : Nat) :
    (marks.mask text)[index]? =
      (Text.lines text)[index]?.map fun line =>
        (marks.maskLine (marks.pendingAfter ((Text.lines text).take index)) line).1 :=
  getElem?_maskFrom none (Text.lines text) index

theorem builtIn_apart :
    ∀ language ∈ LanguageTable.builtInLanguages, language.comments.Apart := by
  decide

/-- **Comment tracking refines the scanner.** The built-in languages have delimiters that stand
apart; for all such delimiters and every text, tracking ends and cuts only inside the text, the
mask has one verdict per line, the pending block after every line is the scanner's, and a line is
a comment exactly when the scanner has a block pending on it or its first visible text is a line
mark or an opener. -/
theorem mask_refines_scan :
    (∀ language ∈ LanguageTable.builtInLanguages, language.comments.Apart) ∧
      ∀ marks : Delimiters, marks.Apart → ∀ text : List Char,
        (∀ rest : List Char, marks.Tracks rest (marks.track rest)) ∧
        (∀ (closer rest : List Char) (count : Nat),
          Text.offset? closer rest = some count → count + closer.length ≤ rest.length) ∧
        (marks.mask text).length = (Text.lines text).length ∧
        (∀ count : Nat, marks.pendingAfter ((Text.lines text).take count) =
          marks.scanLines ((Text.lines text).take count)) ∧
        ∀ (index : Nat) (line : List Char), (Text.lines text)[index]? = some line →
          ((marks.mask text)[index]? = some true ↔
            (marks.scanLines ((Text.lines text).take index)).isSome = true ∨
              Text.trimStart line ≠ [] ∧
                (startsWith marks.line (Text.trimStart line) = true ∨
                  (marks.openerAt? (Text.trimStart line)).isSome = true)) := by
  refine ⟨builtIn_apart, ?_⟩
  intro marks apart text
  refine ⟨track_tracks apart.1, ?_, length_mask marks text, ?_, ?_⟩
  · intro closer rest count found
    exact Text.offset?_add_length_le found
  · intro count
    exact pendingAfter_eq_scanLines apart _
  · intro index line here
    rw [getElem?_mask, here, pendingAfter_eq_scanLines apart, Option.map_some, Option.some.injEq]
    exact maskLine_fst _ line

/-- Two kinds of block, neither of whose openers is a line mark. -/
def twoBlocks : Delimiters :=
  ⟨["//".toList], [("/*".toList, "*/".toList), ("<!--".toList, "-->".toList)]⟩

/-- A block that is closed and another that is opened on one line, and an opener behind a line
mark. -/
def reopened : List Char :=
  "a /* b\n c */ d <!-- // e\n f */\n --> g // /* h\n".toList

/-- Only its own closer ends a block: on the third line the second block is still pending. -/
theorem mask_refines_scan_reopened :
    twoBlocks.Apart ∧ (twoBlocks.mask reopened).length = 4 ∧
      twoBlocks.pendingAfter ((Text.lines reopened).take 2) = some "-->".toList ∧
      (twoBlocks.mask reopened)[2]? = some true ∧
      twoBlocks.pendingAfter ((Text.lines reopened).take 4) = none := by
  have apart : twoBlocks.Apart := by decide
  obtain ⟨-, -, verdicts, pending, comments⟩ := mask_refines_scan.2 twoBlocks apart reopened
  refine ⟨apart, verdicts.trans (by decide), (pending 2).trans (by decide), ?_,
    (pending 4).trans (by decide)⟩
  exact (comments 2 " f */".toList (by decide)).2 (.inl (by decide))

end RepoContract.Delimiters
