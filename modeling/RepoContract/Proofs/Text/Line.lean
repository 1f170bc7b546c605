/-
# RepoContract.Proofs.Text.Line: lines that are written are read back

`Text.lines` cuts a text after its line feeds and takes the line ends off. Here lines are put
together to a text, each with a line feed behind it (`ended`), and cut apart again with any text
behind them (`lines_ended_append`). A line can be read back when it holds no line feed and does not
end in a carriage return, which would go with the line feed behind it (`IsLine`). The line feed
behind the last line can be left out, if anything stands on that line (`lines_intercalate`). With a
carriage return and a line feed behind each, any lines without line feeds can be read back
(`exists_lines_eq`).
-/
import RepoContract.Text.Line

namespace RepoContract.Text

set_option autoImplicit false

/-- A line that a line feed can be put behind. -/
structure IsLine (line : List Char) : Prop where
  noFeed : '\n' ∉ line
  noReturn : line.getLast? ≠ some '\r'

theorem IsLine.of_noReturn {line : List Char} (noFeed : '\n' ∉ line) (noReturn : '\r' ∉ line) :
    IsLine line :=
  ⟨noFeed, fun ends => noReturn (List.mem_of_getLast? ends)⟩

/-- Lines, each with a line feed behind it. -/
def ended (lines : List (List Char)) : List Char :=
  lines.flatMap (· ++ ['\n'])

variable {line : List Char}

/-! ## One line -/

theorem pieces_line (noFeed : '\n' ∉ line) (rest : List Char) :
    pieces (line ++ '\n' :: rest) = (line ++ ['\n']) :: pieces rest := by
  induction line with
  | nil => simp [pieces]
  | cons c line ih =>
      obtain ⟨differs, noFeed⟩ := not_or.1 (mt List.mem_cons.2 noFeed)
      have isOther : c ≠ '\n' := Ne.symm differs
      simp [pieces, isOther, ih noFeed]

theorem pieces_lastLine (noFeed : '\n' ∉ line) (filled : line ≠ []) : pieces line = [line] := by
  induction line with
  | nil => contradiction
  | cons c line ih =>
      obtain ⟨differs, noFeed⟩ := not_or.1 (mt List.mem_cons.2 noFeed)
      have isOther : c ≠ '\n' := Ne.symm differs
      cases line with
      | nil => simp [pieces, isOther]
      | cons d line =>
          have later := ih noFeed (List.cons_ne_nil d line)
          rw [pieces, if_neg isOther, later]

theorem chop_lastLine (noFeed : '\n' ∉ line) : chop line = line := by
  induction line with
  | nil => rfl
  | cons c line ih =>
      obtain ⟨differs, noFeed⟩ := not_or.1 (mt List.mem_cons.2 noFeed)
      rw [chop, ih noFeed]
      · rintro rfl -
        exact differs rfl
      · rintro - rfl
        exact noFeed (List.mem_singleton_self _)

theorem chop_line (isLine : IsLine line) : chop (line ++ ['\n']) = line := by
  obtain ⟨noFeed, noReturn⟩ := isLine
  induction line with
  | nil => rfl
  | cons c line ih =>
      obtain ⟨differs, noFeed⟩ := not_or.1 (mt List.mem_cons.2 noFeed)
      cases line with
      | nil =>
          have isOther : c ≠ '\r' := by
            rintro rfl
            exact noReturn rfl
          simp [chop, isOther]
      | cons d line =>
          have later := ih noFeed (by simpa using noReturn)
          rw [List.cons_append, chop, later] <;> simp

/-- A carriage return goes with the line feed behind it, and only one does. -/
theorem chop_returned (noFeed : '\n' ∉ line) : chop (line ++ ['\r', '\n']) = line := by
  induction line with
  | nil => rfl
  | cons c line ih =>
      obtain ⟨-, noFeed⟩ := not_or.1 (mt List.mem_cons.2 noFeed)
      have isLonger : line ++ ['\r', '\n'] ≠ ['\n'] := by
        intro same
        simpa using congrArg List.length same
      rw [List.cons_append, chop, ih noFeed]
      · simp
      · exact fun _ => isLonger

theorem lines_line (isLine : IsLine line) (rest : List Char) :
    lines (line ++ '\n' :: rest) = line :: lines rest := by
  rw [lines, pieces_line isLine.noFeed, List.map_cons, chop_line isLine, lines]

theorem lines_lastLine (noFeed : '\n' ∉ line) (filled : line ≠ []) : lines line = [line] := by
  rw [lines, pieces_lastLine noFeed filled, List.map_singleton, chop_lastLine noFeed]

theorem lines_returnedLine (noFeed : '\n' ∉ line) (rest : List Char) :
    lines (line ++ '\r' :: '\n' :: rest) = line :: lines rest := by
  have noFeedYet : '\n' ∉ line ++ ['\r'] := by simp [noFeed]
  have split : line ++ '\r' :: '\n' :: rest = (line ++ ['\r']) ++ '\n' :: rest := by simp
  rw [split, lines, pieces_line noFeedYet, List.map_cons, List.append_assoc,
    List.singleton_append, chop_returned noFeed, lines]

/-! ## Many lines -/

/-- **Lines that are written are read back**, whatever text follows. -/
theorem lines_ended_append {written : List (List Char)} (areLines : ∀ line ∈ written, IsLine line)
    (rest : List Char) : lines (ended written ++ rest) = written ++ lines rest := by
  induction written with
  | nil => rfl
  | cons line written ih =>
      obtain ⟨isLine, areLines⟩ := List.forall_mem_cons.1 areLines
      have split : ended (line :: written) ++ rest = line ++ '\n' :: (ended written ++ rest) := by
        simp [ended]
      rw [split, lines_line isLine, ih areLines, List.cons_append]

/-- **Lines without line feeds are those of a text**, also where they end in carriage returns. -/
theorem exists_lines_eq {written : List (List Char)} (noFeeds : ∀ line ∈ written, '\n' ∉ line) :
    ∃ text, lines text = written := by
  induction written with
  | nil => exact ⟨[], rfl⟩
  | cons line written ih =>
      obtain ⟨noFeed, noFeeds⟩ := List.forall_mem_cons.1 noFeeds
      obtain ⟨text, rfl⟩ := ih noFeeds
      exact ⟨line ++ '\r' :: '\n' :: text, lines_returnedLine noFeed text⟩

/-- The last line needs no line feed. -/
theorem lines_intercalate {written : List (List Char)} (areLines : ∀ line ∈ written, IsLine line)
    (filled : ∀ line ∈ written, line ≠ []) : lines (['\n'].intercalate written) = written := by
  induction written with
  | nil => rfl
  | cons line written ih =>
      obtain ⟨isLine, areLines⟩ := List.forall_mem_cons.1 areLines
      obtain ⟨isFilled, filled⟩ := List.forall_mem_cons.1 filled
      cases written with
      | nil =>
          have alone : ['\n'].intercalate [line] = line := by simp [List.intercalate]
          rw [alone, lines_lastLine isLine.noFeed isFilled]
      | cons next written =>
          have split : ['\n'].intercalate (line :: next :: written) =
              line ++ '\n' :: ['\n'].intercalate (next :: written) := by
            simp [List.intercalate]
          rw [split, lines_line isLine, ih areLines filled]

end RepoContract.Text
