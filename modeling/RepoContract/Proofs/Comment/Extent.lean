/-
# RepoContract.Proofs.Comment.Extent: how much of a marked line is a comment

The mask judges a line by its front: by the block that is pending on it, or by what its first
visible text is. So a line on which a block ends counts as a comment, also with code behind the
block, as in the last line of a block that spans several. How far that goes is told by what the
scanner reads outside comments (`Delimiters.outside`).

A line that is not marked is blank or has its first visible character outside comments, so every
line of comments alone is marked. A marked line is comments alone up to the end of the first block
that it ends, and to its own end when it ends none; all that it holds outside comments stands
behind that block, and no rule sees it (`SourceFile.codeLines_extent`). It is not comments alone
as a rule: `eval_behind_block` is a line that is marked and calls `eval`.
-/
import RepoContract.Proofs.Comment.Mask
import RepoContract.Proofs.Source
import RepoContract.Rule.Code

namespace RepoContract

set_option autoImplicit false

namespace Delimiters

/-- The characters of a text that the scanner reads outside comments, given what is pending before
the text. The next `skip` characters belong to a delimiter that has been seen. -/
def outside (marks : Delimiters) : Option (List Char) → Nat → List Char → List Char
  | _, _, [] => []
  | pending, skip + 1, _ :: rest => outside marks pending skip rest
  | some closer, 0, c :: rest =>
      if closer.isPrefixOf (c :: rest) then outside marks none (closer.length - 1) rest
      else outside marks (some closer) 0 rest
  | none, 0, c :: rest =>
      match marks.openerAt? (c :: rest) with
      | some (opener, closer) => outside marks (some closer) (opener.length - 1) rest
      | none =>
          if startsWith marks.line (c :: rest) then [] else c :: outside marks none 0 rest

/-- What follows the first block that ends in a text: the pending one, or the one that the text
starts with. -/
def behindBlock? (marks : Delimiters) : Option (List Char) → List Char → Option (List Char)
  | some closer, text => Text.after? closer text
  | none, text =>
      (marks.openerAt? text).bind fun (opener, closer) =>
        Text.after? closer (text.drop opener.length)

/-- Every visible character of a line is in a comment. -/
def IsComment (marks : Delimiters) (pending : Option (List Char)) (line : List Char) : Prop :=
  ∀ c ∈ marks.outside pending 0 (Text.trimStart line), Text.isBlank c = true

instance (marks : Delimiters) (pending : Option (List Char)) (line : List Char) :
    Decidable (marks.IsComment pending line) :=
  decidable_of_iff ((marks.outside pending 0 (Text.trimStart line)).all Text.isBlank = true)
    List.all_eq_true

variable {marks : Delimiters} {pending : Option (List Char)} {c : Char} {text rest : List Char}

/-! ## The steps of the scanner -/

theorem outside_skip (pending : Option (List Char)) (skip : Nat) (text : List Char) :
    marks.outside pending skip text = marks.outside pending 0 (text.drop skip) := by
  induction text generalizing skip with
  | nil => cases skip <;> cases pending <;> rfl
  | cons c rest ih =>
      cases skip with
      | zero => rfl
      | succ skip => rw [outside, List.drop_succ_cons, ih]

/-- In a block nothing is outside before the closer. -/
theorem outside_some {closer : List Char} (takes : closer ≠ []) (text : List Char) :
    marks.outside (some closer) 0 text =
      (Text.after? closer text).elim [] (marks.outside none 0) := by
  induction text with
  | nil =>
      obtain ⟨d, more, rfl⟩ := List.exists_cons_of_ne_nil takes
      rfl
  | cons c rest ih =>
      rw [outside]
      cases starts : closer.isPrefixOf (c :: rest) with
      | true =>
          rw [Text.after?_of_starts starts, if_pos rfl, outside_skip, drop_pred takes]
          rfl
      | false => rw [Text.after?_cons starts, if_neg (by simp), ih]

/-- An opener in front opens its block. -/
theorem outside_opener (solid : marks.Solid) {opener closer : List Char}
    (starts : marks.openerAt? text = some (opener, closer)) :
    marks.outside none 0 text =
      (Text.after? closer (text.drop opener.length)).elim [] (marks.outside none 0) := by
  obtain ⟨openerTakes, closerTakes⟩ := solid _ (List.mem_of_find?_eq_some starts)
  cases text with
  | nil =>
      have here : opener.isPrefixOf [] = true := by simpa using List.find?_some starts
      exact absurd (by simpa using here) openerTakes
  | cons c rest =>
      rw [outside, starts]
      simp only
      rw [outside_skip, drop_pred openerTakes, outside_some closerTakes]

/-- A line mark in front hides everything behind it. -/
theorem outside_lineMark (absent : marks.openerAt? text = none)
    (starts : startsWith marks.line text = true) : marks.outside none 0 text = [] := by
  cases text with
  | nil => rfl
  | cons c rest => rw [outside, absent, starts]; rfl

/-- A character that starts no delimiter is outside comments. -/
theorem outside_cons (noOpener : marks.openerAt? (c :: rest) = none)
    (noMark : startsWith marks.line (c :: rest) = false) :
    marks.outside none 0 (c :: rest) = c :: marks.outside none 0 rest := by
  rw [outside, noOpener, noMark]
  rfl

/-! ## Marked lines and the others -/

/-- **What a marked line holds outside comments stands behind its first block.** -/
theorem outside_of_marked (apart : marks.Apart) (declared : marks.Declared pending)
    {line : List Char} (marked : (marks.maskLine pending line).1 = true) :
    marks.outside pending 0 (Text.trimStart line) =
      (marks.behindBlock? pending (Text.trimStart line)).elim [] (marks.outside none 0) := by
  cases pending with
  | some closer => exact outside_some (declared.takes apart.1) _
  | none =>
      obtain impossible | ⟨-, front⟩ := (maskLine_fst none line).1 marked
      · simp at impossible
      · cases starts : marks.openerAt? (Text.trimStart line) with
        | some pair =>
            rw [outside_opener apart.1 starts, behindBlock?, starts]
            rfl
        | none =>
            have hidden : startsWith marks.line (Text.trimStart line) = true := by
              simpa [starts] using front
            rw [outside_lineMark starts hidden, behindBlock?, starts]
            rfl

/-- A line that is not marked starts outside comments, if anything is visible on it. -/
theorem outside_of_unmarked {line : List Char}
    (unmarked : (marks.maskLine pending line).1 = false)
    (visible : Text.trimStart line = c :: rest) :
    pending = none ∧ marks.outside pending 0 (c :: rest) = c :: marks.outside none 0 rest := by
  have front := (maskLine_fst pending line).not.1 (by rw [unmarked]; exact Bool.false_ne_true)
  simp only [not_or, Bool.not_eq_true, Option.isSome_eq_false_iff, Option.isNone_iff_eq_none,
    not_and, visible] at front
  obtain ⟨rfl, front⟩ := front
  obtain ⟨noMark, noOpener⟩ := front (by simp)
  exact ⟨rfl, outside_cons noOpener noMark⟩

/-- A line of comments alone is marked, if anything is visible on it. -/
theorem IsComment.marked {line : List Char} (alone : marks.IsComment pending line)
    (visible : Text.trimStart line ≠ []) : (marks.maskLine pending line).1 = true := by
  by_contra unmarked
  obtain ⟨c, rest, isVisible⟩ := List.exists_cons_of_ne_nil visible
  obtain ⟨-, front⟩ := outside_of_unmarked (Bool.not_eq_true _ ▸ unmarked) isVisible
  -- the first character that is not trimmed is no blank, and it is outside
  have first : Text.isBlank c = true := alone c (by rw [isVisible, front]; exact List.mem_cons_self)
  have noBlank := List.head?_dropWhile_not Text.isBlank line
  rw [← Text.trimStart, isVisible] at noBlank
  simp [first] at noBlank

end Delimiters

namespace SourceFile

open Delimiters (IsComment)

/-- **How much of a marked line is a comment.** In a file whose language keeps its delimiters
apart, every line has a verdict, and the rules read it as code when the verdict is that it is no
comment. On a line with the other verdict, all that the scanner sees outside comments stands
behind the first block that ends on the line; so the line is comments alone exactly when nothing
visible is outside comments there. A line of comments alone is never read as code unless it is
blank. -/
theorem codeLines_extent (source : SourceFile) (apart : source.language.comments.Apart)
    {index : Nat} {line : List Char} (isLine : (Text.lines source.text)[index]? = some line)
    {pending : Option (List Char)}
    (before : source.language.comments.scanLines ((Text.lines source.text).take index) = pending) :
    ∃ isComment, source.mask[index]? = some isComment ∧
      ((index + 1, line) ∈ source.codeLines ↔ isComment = false) ∧
      (isComment = true →
        source.language.comments.outside pending 0 (Text.trimStart line) =
            (source.language.comments.behindBlock? pending (Text.trimStart line)).elim []
              (source.language.comments.outside none 0) ∧
          (source.language.comments.IsComment pending line ↔
            ∀ behind ∈ source.language.comments.behindBlock? pending (Text.trimStart line),
              ∀ c ∈ source.language.comments.outside none 0 behind, Text.isBlank c = true)) ∧
      (source.language.comments.IsComment pending line → isComment = true ∨
        Text.trimStart line = []) := by
  have verdict : source.mask[index]? =
      some (source.language.comments.maskLine pending line).1 := by
    rw [mask, Delimiters.getElem?_mask, isLine, Delimiters.pendingAfter_eq_scanLines apart, before]
    rfl
  have declared : source.language.comments.Declared pending :=
    before ▸ Delimiters.scanLines_declared _
  refine ⟨_, verdict, ?_, ?_, ?_⟩
  · rw [mem_codeLines_iff]
    constructor
    · rintro ⟨other, same, -, unmarked⟩
      obtain rfl : index = other := by omega
      rw [verdict] at unmarked
      exact Option.some.inj unmarked
    · intro unmarked
      exact ⟨index, rfl, isLine, by rw [verdict, unmarked]⟩
  · intro marked
    have extent := Delimiters.outside_of_marked apart declared marked
    refine ⟨extent, ?_⟩
    rw [IsComment, extent]
    cases source.language.comments.behindBlock? pending (Text.trimStart line) <;> simp
  · intro alone
    by_cases visible : Text.trimStart line = []
    · exact .inr visible
    · exact .inl (alone.marked visible)

/-- A block over three lines with a call behind its end, which counts as a comment, and a comment
behind that. -/
def reopening : SourceFile :=
  ⟨Path.ofString "a.js", ⟨"javascript", ["js"], LanguageTable.slashComments, ""⟩,
    "let a = 1; /* open\n inside\n */ done(); // end\n".toList⟩

/-- The line that ends the block is marked, and no rule sees the call on it. -/
theorem codeLines_extent_reopening :
    reopening.language.comments.Apart ∧ reopening.mask = [false, true, true] ∧
      (3, " */ done(); // end".toList) ∉ reopening.codeLines ∧
      reopening.language.comments.outside (some "*/".toList) 0 "*/ done(); // end".toList =
        " done(); ".toList := by
  have apart : reopening.language.comments.Apart := by decide
  have marked : reopening.mask[2]? = some true := by decide +kernel
  have isLine : (Text.lines reopening.text)[2]? = some " */ done(); // end".toList := by
    decide +kernel
  have before : reopening.language.comments.scanLines ((Text.lines reopening.text).take 2) =
      some "*/".toList := by
    decide +kernel
  obtain ⟨isComment, verdict, code, extent, -⟩ := codeLines_extent reopening apart isLine before
  obtain rfl : isComment = true := Option.some.inj (verdict.symm.trans marked)
  refine ⟨apart, by decide +kernel, fun inCode => (nomatch code.1 inCode), ?_⟩
  exact (extent rfl).1.trans (by decide +kernel)

/-- One line of script, a call of `eval` behind a block that ends before it. -/
def besideBlock : SourceFile :=
  ⟨Path.ofString "a.js", ⟨"javascript", ["js"], LanguageTable.slashComments, ""⟩,
    "/* safe */ eval(x)\n".toList⟩

/-- **A marked line is not always comments alone.** The call stands outside comments and the catalog
has a pattern that fires on the line, but the line starts with a block, so it is marked: no rule
reads it as code, and the contract that forbids the call finds nothing. -/
theorem eval_behind_block :
    let line := "/* safe */ eval(x)".toList
    let contract := { Contract.minimal ["javascript"] .lite with
      forbiddenPatterns := ["dynamic-eval"] }
    LanguageTable.slashComments.Apart ∧ LanguageTable.slashComments.mask besideBlock.text = [true] ∧
      LanguageTable.slashComments.outside none 0 line = " eval(x)".toList ∧
      ¬ LanguageTable.slashComments.IsComment none line ∧ besideBlock.codeLines = [] ∧
      Rule.judgeLine (Rule.enforcedEntries contract) besideBlock 1 line ≠ [] ∧
      Rule.judgeForbidden contract besideBlock = [] := by
  decide +kernel

end SourceFile

end RepoContract
