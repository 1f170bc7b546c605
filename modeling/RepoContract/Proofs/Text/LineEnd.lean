/-
# RepoContract.Proofs.Text.LineEnd: texts that differ in their line ends

A text that holds no carriage return has the same lines with one in front of each of its line
feeds, and with a line feed behind its last line if that has none (`Reended.lines_eq`). Both are
said of items of any kind, as files are written in bytes and lines are told apart in characters:
the bytes of a line end are characters by themselves, so with other line ends a file is read as
the text with other line ends, also where its bytes are no text (`Reended.decodeLossy`).

Without the condition there is no such law: a carriage return in front of a line feed goes with it,
and one more is left over.
-/
import Mathlib.Data.List.Basic
import Mathlib.Tactic.MkIffOfInductiveProp
import RepoContract.Proofs.Text.Line
import RepoContract.Proofs.Text.Utf8

namespace RepoContract.Text

set_option autoImplicit false

section Items

variable {α : Type*} [DecidableEq α] {ret feed : α} {text other line : List α}

/-- The items with a carriage return in front of each line feed. -/
def returned (ret feed : α) (text : List α) : List α :=
  text.flatMap fun item => if item = feed then [ret, feed] else [item]

/-- A text and the same text with other line ends. Only a text without carriage returns has others:
it can have one in front of each line feed, or a line feed behind its last line if none is there. -/
@[mk_iff]
inductive Reended (ret feed : α) (text : List α) : List α → Prop
  | same : Reended ret feed text text
  | returned (noReturn : ret ∉ text) : Reended ret feed text (returned ret feed text)
  | finished (noReturn : ret ∉ text) (filled : text ≠ []) (isOpen : text.getLast? ≠ some feed) :
      Reended ret feed text (text ++ [feed])

instance : Decidable (Reended ret feed text other) :=
  decidable_of_iff' _ (reended_iff ret feed text other)

/-- A text is a last line, or a line with a line feed and a text behind it. -/
theorem line_induction {motive : List α → Prop} (feed : α)
    (last : ∀ line, feed ∉ line → motive line)
    (next : ∀ line rest, feed ∉ line → motive rest → motive (line ++ feed :: rest))
    (text : List α) : motive text := by
  by_cases hasFeed : feed ∈ text
  · obtain ⟨line, rest, isText, noFeed⟩ := List.eq_append_cons_of_mem hasFeed
    have shorter : rest.length < text.length := by
      rw [isText, List.length_append, List.length_cons]
      omega
    rw [isText]
    exact next line rest noFeed (line_induction feed last next rest)
  · exact last text hasFeed
  termination_by text.length

theorem returned_line (noFeed : feed ∉ line) : returned ret feed line = line := by
  have stays : ∀ item ∈ line, (if item = feed then [ret, feed] else [item]) = [item] := by
    intro item isItem
    refine if_neg ?_
    rintro rfl
    exact noFeed isItem
  rw [returned, List.flatMap_congr stays, List.flatMap_singleton']

theorem returned_append (noFeed : feed ∉ line) (rest : List α) :
    returned ret feed (line ++ feed :: rest) = line ++ ret :: feed :: returned ret feed rest := by
  have front : returned ret feed line = line := returned_line noFeed
  rw [returned] at front ⊢
  rw [List.flatMap_append, front, List.flatMap_cons, if_pos rfl]
  rfl

end Items

/-! ## Lines -/

variable {text other : List Char}

/-- A carriage return in front of each line feed goes with it. -/
theorem lines_returned (noReturn : '\r' ∉ text) : lines (returned '\r' '\n' text) = lines text := by
  induction text using line_induction '\n' with
  | last line noFeed => rw [returned_line noFeed]
  | next line rest noFeed ih =>
      obtain ⟨inLine, inRest⟩ := not_or.1 (List.mem_append.not.1 noReturn)
      rw [returned_append noFeed, lines_returnedLine noFeed,
        ih fun inside => inRest (List.mem_cons_of_mem _ inside),
        lines_line (.of_noReturn noFeed inLine)]

/-- A line feed behind the last line makes no further one. -/
theorem lines_finished (noReturn : '\r' ∉ text) (filled : text ≠ [])
    (isOpen : text.getLast? ≠ some '\n') : lines (text ++ ['\n']) = lines text := by
  induction text using line_induction '\n' with
  | last line noFeed =>
      rw [lines_line (.of_noReturn noFeed noReturn), lines_lastLine noFeed filled]
      rfl
  | next line rest noFeed ih =>
      obtain ⟨inLine, inRest⟩ := not_or.1 (List.mem_append.not.1 noReturn)
      have isLine : IsLine line := .of_noReturn noFeed inLine
      have filledRest : rest ≠ [] := by
        rintro rfl
        exact isOpen List.getLast?_concat
      have openRest : rest.getLast? ≠ some '\n' := by
        intro ends
        obtain ⟨front, rfl⟩ := List.getLast?_eq_some_iff.1 ends
        exact isOpen (by rw [← List.cons_append, ← List.append_assoc, List.getLast?_concat])
      rw [List.append_assoc, List.cons_append, lines_line isLine, lines_line isLine,
        ih (fun inside => inRest (List.mem_cons_of_mem _ inside)) filledRest openRest]

/-- **Other line ends leave the lines as they are.** -/
theorem Reended.lines_eq (reended : Reended '\r' '\n' text other) : lines other = lines text := by
  cases reended with
  | same => rfl
  | returned noReturn => exact lines_returned noReturn
  | finished noReturn filled isOpen => exact lines_finished noReturn filled isOpen

/-- With a carriage return in the text one is left over. -/
example : lines (returned '\r' '\n' "a\r\nb".toList) ≠ lines "a\r\nb".toList := by decide +kernel

/-! ## Bytes -/

namespace Utf8

def retByte : UInt8 := 0x0D
def feedByte : UInt8 := 0x0A

variable {bytes : Bytes}

/-- What is read where a byte does not stand does not hold its character. -/
theorem not_mem_decodeLossy {byte : UInt8} (isAscii : byte.toNat < 0x80) (absent : byte ∉ bytes) :
    Char.ofNat byte.toNat ∉ decodeLossy bytes := by
  intro isRead
  obtain ⟨front, behind, isText⟩ := List.append_of_mem isRead
  obtain ⟨before, after, rfl, -⟩ := exists_of_decodeLossy isAscii isText
  simp at absent

theorem decodeLossy_returned (bytes : Bytes) :
    decodeLossy (returned retByte feedByte bytes) = returned '\r' '\n' (decodeLossy bytes) := by
  have ret (front rest : Bytes) : decodeLossy (front ++ retByte :: rest) =
      decodeLossy front ++ '\r' :: decodeLossy rest :=
    decodeLossy_append_ascii (by decide) front rest
  have feed (front rest : Bytes) : decodeLossy (front ++ feedByte :: rest) =
      decodeLossy front ++ '\n' :: decodeLossy rest :=
    decodeLossy_append_ascii (by decide) front rest
  have noFeedRead {line : Bytes} (noFeed : feedByte ∉ line) : '\n' ∉ decodeLossy line :=
    not_mem_decodeLossy (by decide) noFeed
  induction bytes using line_induction feedByte with
  | last line noFeed => rw [returned_line noFeed, returned_line (noFeedRead noFeed)]
  | next line rest noFeed ih =>
      have feedFirst : decodeLossy (feedByte :: returned retByte feedByte rest) =
          '\n' :: decodeLossy (returned retByte feedByte rest) :=
        decodeLossy_cons_of_ascii (by decide) _
      rw [returned_append noFeed, ret, feedFirst, ih, feed, returned_append (noFeedRead noFeed)]

/-- What is read of bytes that end in no line feed ends in none. -/
theorem getLast?_decodeLossy_ne (isOpen : bytes.getLast? ≠ some feedByte) :
    (decodeLossy bytes).getLast? ≠ some '\n' := by
  intro ends
  obtain ⟨front, isText⟩ := List.getLast?_eq_some_iff.1 ends
  have isAscii : feedByte.toNat < 0x80 := by decide
  obtain ⟨before, after, rfl, isAfter⟩ := exists_of_decodeLossy isAscii isText
  obtain rfl := decodeLossy_eq_nil_iff.1 isAfter
  exact isOpen List.getLast?_concat

end Utf8

open Utf8 (Bytes retByte feedByte)

/-- **A file with other line ends is read as the text with other line ends.** -/
theorem Reended.decodeLossy {bytes others : Bytes}
    (reended : Reended retByte feedByte bytes others) :
    Reended '\r' '\n' (Utf8.decodeLossy bytes) (Utf8.decodeLossy others) := by
  have isAscii : retByte.toNat < 0x80 := by decide
  have noReturnRead (noReturn : retByte ∉ bytes) : '\r' ∉ Utf8.decodeLossy bytes :=
    Utf8.not_mem_decodeLossy isAscii noReturn
  cases reended with
  | same => exact .same
  | returned noReturn =>
      rw [Utf8.decodeLossy_returned]
      exact .returned (noReturnRead noReturn)
  | finished noReturn filled isOpen =>
      have isFeed : feedByte.toNat < 0x80 := by decide
      rw [Utf8.decodeLossy_append_ascii isFeed, Utf8.decodeLossy_eq_nil_iff.2 rfl]
      exact .finished (noReturnRead noReturn) (mt Utf8.decodeLossy_eq_nil_iff.1 filled)
        (Utf8.getLast?_decodeLossy_ne isOpen)

end RepoContract.Text
