/-
# RepoContract.Comment: which lines are comments

A language marks comments that end with their line by a line mark, and comments over several
lines by an opener and its closer. A block that is open at the end of a line is pending on the
next, and only its own closer ends it.

`Delimiters.mask` says for each line of a text whether it counts as a comment, and its front
decides: a block is pending on it, or its first visible text is a line mark or an opener. A line on
which a block ends counts as one with all that follows. What a line leaves pending is found by
`track`, which goes from opener to closer: the earliest opener counts, the first declared of several
at one place, unless a line mark stands before it.

An opener and its closer are taken to have some text between them. A block whose two delimiters are
empty starts and ends at one place, and following it from there to there has no end; `track` stops
at it instead, and says nothing about such a language.
-/
import RepoContract.Text.Blank
import RepoContract.Text.Find
import RepoContract.Text.Line

namespace RepoContract

set_option autoImplicit false

/-- How a language marks comments. -/
structure Delimiters where
  /-- Line marks. -/
  line : List (List Char)
  /-- Openers with their closers. -/
  block : List (List Char × List Char)
  deriving DecidableEq, Repr

namespace Delimiters

/-- The pair with the least number, the first of several. -/
def nearest {α : Type} : List (Nat × α) → Option (Nat × α)
  | [] => none
  | first :: rest =>
    match nearest rest with
    | some other => if other.1 < first.1 then some other else some first
    | none => some first

/-- The earliest opener in a text: where it stands, itself and its closer. -/
def opener? (marks : Delimiters) (text : List Char) : Option (Nat × List Char × List Char) :=
  nearest (marks.block.filterMap fun (opener, closer) =>
    (Text.offset? opener text).map fun offset => (offset, opener, closer))

/-- Where the earliest line mark in a text stands. -/
def lineMark? (marks : Delimiters) (text : List Char) : Option Nat :=
  (marks.line.filterMap fun mark => Text.offset? mark text).min?

/-- The closer that is pending after a text that starts outside comments. A block that takes no
text, since its opener and its closer are empty, is followed no further. -/
def track (marks : Delimiters) (text : List Char) : Option (List Char) :=
  match marks.opener? text with
  | none => none
  | some (offset, opener, closer) =>
    if (marks.lineMark? text).any (· < offset) then none
    else
      match Text.after? closer (text.drop (offset + opener.length)) with
      | none => some closer
      | some rest => if rest.length < text.length then track marks rest else none
  termination_by text.length

/-- Whether a line without its leading blanks starts with one of some marks. -/
def startsWith (marks : List (List Char)) (text : List Char) : Bool :=
  marks.any fun mark => mark.isPrefixOf text

/-- Whether a line is a comment, and what it leaves pending, given what is pending before it. -/
def maskLine (marks : Delimiters) (pending : Option (List Char)) (line : List Char) :
    Bool × Option (List Char) :=
  let text := Text.trimStart line
  match pending with
  | some closer =>
    match Text.after? closer text with
    | some rest => (true, marks.track rest)
    | none => (true, some closer)
  | none =>
    if text.isEmpty then (false, none)
    else if startsWith marks.line text then (true, none)
    else (startsWith (marks.block.map (·.1)) text, marks.track text)

/-- Which of some lines are comments, given what is pending before them. -/
def maskFrom (marks : Delimiters) : Option (List Char) → List (List Char) → List Bool
  | _, [] => []
  | pending, line :: rest =>
    (marks.maskLine pending line).1 :: maskFrom marks (marks.maskLine pending line).2 rest

/-- For each line of a text, whether it is a comment. -/
def mask (marks : Delimiters) (text : List Char) : List Bool :=
  marks.maskFrom none (Text.lines text)

theorem length_maskFrom (marks : Delimiters) (pending : Option (List Char))
    (lines : List (List Char)) : (marks.maskFrom pending lines).length = lines.length := by
  induction lines generalizing pending with
  | nil => rfl
  | cons line rest ih => simp [maskFrom, ih]

theorem length_mask (marks : Delimiters) (text : List Char) :
    (marks.mask text).length = (Text.lines text).length :=
  length_maskFrom ..

end Delimiters

end RepoContract
