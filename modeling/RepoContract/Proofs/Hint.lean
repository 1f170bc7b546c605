/-
# RepoContract.Proofs.Hint: hints that are written are read back

A hint can be written behind a line mark or on a line inside a block, and it is read from a text
whose lines are judged one after the other. The reading is told by a plain recursion over the lines
with the pending block handed on (`Hint.ofLines`): what is read from lines one behind the other is
what is read from the first and then what is read from the others (`ofLines_append`), and lines
further down give the same hints further down (`ofLines_movedBy`). So lines that leave pending what
was pending before them hold the hints written on them, each on its own line (`ofLines_notes`).

On one line the sign is found behind a front that lacks its first character, the key ends at the
colon, and a value without white space around it is neither trimmed nor cut, unless it ends in a
closer (`ofLine?_lineBehind`). A value may well hold another sign, a colon, an opener, or the closer
of a block when it stands behind a line mark.

`ofText_written` puts this together for the built-in languages, with any text behind the comments.
-/
import RepoContract.Hint
import RepoContract.Proofs.Comment.Mask
import RepoContract.Proofs.Text.Blank
import RepoContract.Proofs.Text.Line

namespace RepoContract

set_option autoImplicit false

/-! ## Comments on one line -/

namespace Delimiters

/-- A delimiter of visible characters that a hint can stand behind: it takes text and lacks the
character that a sign starts with. -/
def IsClear (delimiter : List Char) : Prop :=
  delimiter ≠ [] ∧ ∀ c ∈ delimiter, Text.isBlank c = false ∧ c ≠ '@'

instance (delimiter : List Char) : Decidable (IsClear delimiter) :=
  have := List.decidableBAll (fun c => Text.isBlank c = false ∧ c ≠ '@') delimiter
  instDecidableAnd

theorem builtIn_clear : ∀ language ∈ LanguageTable.builtInLanguages,
    (∀ mark ∈ language.comments.line, IsClear mark) ∧
      ∀ pair ∈ language.comments.block, IsClear pair.1 ∧ IsClear pair.2 := by
  decide

variable {marks : Delimiters} {delimiter opener closer line : List Char}

theorem IsClear.sign_not_mem (clear : IsClear delimiter) : '@' ∉ delimiter :=
  fun isIn => (clear.2 _ isIn).2 rfl

/-- White space in front of a delimiter is all that is trimmed. -/
theorem IsClear.trimStart_eq (clear : IsClear delimiter) {indent : List Char}
    (blank : ∀ c ∈ indent, Text.isBlank c = true) (rest : List Char) :
    Text.trimStart (indent ++ (delimiter ++ rest)) = delimiter ++ rest := by
  obtain ⟨takes, visible⟩ := clear
  rw [Text.trimStart, List.dropWhile_append_of_pos blank]
  obtain ⟨c, more, rfl⟩ := List.exists_cons_of_ne_nil takes
  have isVisible : Text.isBlank c = false := (visible c List.mem_cons_self).1
  simp [isVisible]

theorem IsClear.trimStart_self (clear : IsClear delimiter) :
    Text.trimStart delimiter = delimiter := by
  simpa using clear.trimStart_eq (List.forall_mem_nil _) []

/-- A line behind a line mark is a comment and leaves nothing pending. -/
theorem maskLine_lineMark (isMark : delimiter ∈ marks.line) (clear : IsClear delimiter)
    {indent : List Char} (blank : ∀ c ∈ indent, Text.isBlank c = true) (rest : List Char) :
    marks.maskLine none (indent ++ (delimiter ++ rest)) = (true, none) := by
  have starts : startsWith marks.line (delimiter ++ rest) = true :=
    List.any_eq_true.2 ⟨delimiter, isMark, List.isPrefixOf_iff_prefix.2 (List.prefix_append _ _)⟩
  have filled : (delimiter ++ rest).isEmpty = false := by
    simp [clear.1]
  simp only [maskLine, clear.trimStart_eq blank, filled, starts]
  rfl

/-- A line inside a block is a comment and leaves the block pending. -/
theorem maskLine_inside (absent : ¬ closer <:+: line) :
    marks.maskLine (some closer) line = (true, some closer) := by
  have goesOn : Text.after? closer (Text.trimStart line) = none := by
    rw [Text.after?_eq_none_iff]
    apply Text.offset?_eq_none
    intro isIn
    exact absent (isIn.trans (List.dropWhile_suffix _).isInfix)
  simp only [maskLine, goesOn]

/-- An opener alone on its line leaves its block pending. -/
theorem maskLine_opener (apart : marks.Apart) (clear : IsClear opener)
    (first : marks.openerAt? opener = some (opener, closer)) :
    marks.maskLine none opener = (true, some closer) := by
  have isDeclared : (opener, closer) ∈ marks.block := List.mem_of_find?_eq_some first
  have noMark : startsWith marks.line opener = false := by
    by_contra starts
    rw [apart.openerAt?_eq_none (Bool.not_eq_false _ ▸ starts)] at first
    contradiction
  have pends : marks.track opener = some closer := by
    have goesOn : Text.after? closer [] = none := by
      simp [Text.after?, Text.offset?, (apart.1 _ isDeclared).2]
    rw [track_opener apart.1 first, List.drop_length, goesOn]
  have filled : opener.isEmpty = false := by
    simp [clear.1]
  simp only [maskLine, clear.trimStart_self, filled, noMark, startsWith_openers, first, pends]
  rfl

/-- A closer alone on its line ends the block. -/
theorem maskLine_closer (solid : marks.Solid) (clear : IsClear closer) :
    marks.maskLine (some closer) closer = (true, none) := by
  have ends : Text.after? closer closer = some [] := by
    rw [Text.after?_of_starts (List.isPrefixOf_iff_prefix.2 (List.prefix_refl _)),
      List.drop_length]
  simp only [maskLine, clear.trimStart_self, ends, track_nil solid]

/-- What is pending after some lines, given what is pending before them. -/
def pendingFrom (marks : Delimiters) (pending : Option (List Char)) (lines : List (List Char)) :
    Option (List Char) :=
  lines.foldl (fun pending line => (marks.maskLine pending line).2) pending

end Delimiters

namespace Hint

variable {marks : Delimiters} {pending : Option (List Char)} {number : Nat} {front : List Char}

/-! ## Hints of lines -/

/-- The hints of lines that are numbered on from some number, given what is pending before them. -/
def ofLines (marks : Delimiters) : Option (List Char) → Nat → List (List Char) → List Hint
  | _, _, [] => []
  | pending, number, line :: rest =>
      (if (marks.maskLine pending line).1 then ofLine? (marks.block.map (·.2)) number line
        else none).toList ++
        ofLines marks (marks.maskLine pending line).2 (number + 1) rest

/-- The same hint so many lines further down. -/
def movedBy (count : Nat) (hint : Hint) : Hint :=
  { hint with line := hint.line + count }

theorem ofMask_lines (marks : Delimiters) (pending : Option (List Char)) (index : Nat)
    (lines : List (List Char)) :
    (((lines.zipIdx index).map fun (line, index) => (index + 1, line)).zip
        (marks.maskFrom pending lines)).filterMap (fun ((number, line), isComment) =>
          if isComment then ofLine? (marks.block.map (·.2)) number line else none) =
      ofLines marks pending (index + 1) lines := by
  induction lines generalizing pending index with
  | nil => rfl
  | cons line rest ih =>
      rw [List.zipIdx_cons, List.map_cons, Delimiters.maskFrom, List.zip_cons_cons, ofLines,
        ← ih, List.filterMap_cons]
      dsimp only
      split
      · next absent => simp [absent]
      · next found => simp [found]

/-- The hints of a text are those of its lines. -/
theorem ofText_eq_ofLines (marks : Delimiters) (text : List Char) :
    ofText marks text = ofLines marks none 1 (Text.lines text) :=
  ofMask_lines marks none 0 (Text.lines text)

theorem ofLines_append (marks : Delimiters) (pending : Option (List Char)) (number : Nat)
    (front behind : List (List Char)) :
    ofLines marks pending number (front ++ behind) =
      ofLines marks pending number front ++
        ofLines marks (marks.pendingFrom pending front) (number + front.length) behind := by
  induction front generalizing pending number with
  | nil => rfl
  | cons line front ih =>
      rw [List.cons_append, ofLines, ofLines, ih, List.append_assoc, List.length_cons,
        Nat.add_right_comm, Nat.add_assoc number front.length 1]
      rfl

theorem ofLine?_movedBy (closers : List (List Char)) (number count : Nat) (line : List Char) :
    ofLine? closers (number + count) line = (ofLine? closers number line).map (movedBy count) := by
  simp only [ofLine?, Option.map_map]
  rfl

/-- Lines further down hold the same hints further down. -/
theorem ofLines_movedBy (marks : Delimiters) (pending : Option (List Char)) (number count : Nat)
    (lines : List (List Char)) :
    ofLines marks pending (number + count) lines =
      (ofLines marks pending number lines).map (movedBy count) := by
  induction lines generalizing pending number with
  | nil => rfl
  | cons line rest ih =>
      rw [ofLines, ofLines, Nat.add_right_comm, ih, List.map_append, ofLine?_movedBy]
      split
      · rw [Option.toList_map]
      · rfl

/-- Lines of code hold no hints. -/
theorem ofLines_of_code {lines : List (List Char)}
    (code : ∀ isComment ∈ marks.maskFrom pending lines, isComment = false) :
    ofLines marks pending number lines = [] := by
  induction lines generalizing pending number with
  | nil => rfl
  | cons line rest ih =>
      rw [Delimiters.maskFrom] at code
      obtain ⟨isCode, code⟩ := List.forall_mem_cons.1 code
      rw [ofLines, ih code, isCode]
      rfl

/-! ## Hints that are written -/

/-- A hint as it can be written: a key of key characters, and a value that stands on one line and
has no white space around it. -/
structure Note where
  key : List Char
  value : List Char
  plain : ∀ c ∈ key, isKeyChar c = true
  filled : value ≠ []
  oneLine : '\n' ∉ value
  isTrim : Text.IsTrim value

namespace Note

/-- The line with a note behind some text. -/
def lineBehind (front : List Char) (note : Note) : List Char :=
  front ++ (sign ++ (note.key ++ ':' :: ' ' :: note.value))

/-- What a note says, on some line. -/
def hint (note : Note) (number : Nat) : Hint :=
  { line := number, key := String.ofList note.key, value := some (String.ofList note.value) }

/-- What notes on lines one behind the other say. -/
def hints (number : Nat) (notes : List Note) : List Hint :=
  (notes.zipIdx number).map fun (note, number) => note.hint number

/-- A note whose value ends in no closer. -/
def EndsOpen (marks : Delimiters) (note : Note) : Prop :=
  ∀ pair ∈ marks.block, ¬ pair.2 <:+ note.value

variable {note : Note}

/-- A note is well-formed exactly when its key is known. -/
theorem problem?_hint (note : Note) (number : Nat) :
    (note.hint number).problem? = none ↔ String.ofList note.key ∈ knownKeys := by
  have filled : String.ofList note.value ≠ "" := by
    intro empty
    exact note.filled (by simpa using congrArg String.toList empty)
  have isKnown : (note.hint number).key = String.ofList note.key := rfl
  rw [problem?, isKnown]
  by_cases known : String.ofList note.key ∈ knownKeys <;> simp [known, hint, filled]

/-- A line with a note can be written and read. -/
theorem isLine_lineBehind (oneLine : '\n' ∉ front) (note : Note) :
    Text.IsLine (note.lineBehind front) := by
  have notInSign : '\n' ∉ sign := by decide
  have notInKey : '\n' ∉ note.key := by
    intro isIn
    exact absurd (note.plain _ isIn) (by decide)
  have notInValue := note.oneLine
  constructor
  · simp [lineBehind, oneLine, notInSign, notInKey, notInValue]
  · -- the line ends as the value does, which is no white space
    intro isReturn
    have last : note.value.getLast? = some '\r' := by
      rw [← isReturn, lineBehind, List.getLast?_append_of_ne_nil _ (by simp),
        List.getLast?_append_of_ne_nil _ (by simp), List.getLast?_append_of_ne_nil _ (by simp),
        List.getLast?_cons_cons, List.getLast?_cons, List.getLast?_eq_getLast_of_ne_nil note.filled]
      rfl
    exact absurd (note.isTrim.last _ last) (by decide)

end Note

/-! ## Reading a line -/

/-- A value that ends in no closer is left as it is. -/
theorem dropClosers_eq_self {closers : List (List Char)} {value : List Char}
    (ends : ∀ closer ∈ closers, ¬ closer <:+ value) : dropClosers closers value = value := by
  induction closers with
  | nil => rfl
  | cons closer more ih =>
      obtain ⟨isOpen, ends⟩ := List.forall_mem_cons.1 ends
      have kept : Text.dropEnding? closer value = none := by
        rw [Text.dropEnding?, if_neg (by simpa using isOpen)]
      rw [dropClosers, List.foldl_cons, kept]
      exact ih ends

theorem valueOf?_colon {closers : List (List Char)} {value : List Char}
    (isTrim : Text.IsTrim value) (ends : ∀ closer ∈ closers, ¬ closer <:+ value) :
    valueOf? closers (':' :: ' ' :: value) = some value := by
  have colon : Text.trimStart (':' :: ' ' :: value) = ':' :: ' ' :: value := rfl
  have space : Text.trim (' ' :: value) = Text.trim value := rfl
  rw [valueOf?, colon]
  simp only [space, isTrim.trim_eq, dropClosers_eq_self ends]

/-- **A note on a line is read back**, whatever its value holds. -/
theorem ofLine?_lineBehind {note : Note} (clear : '@' ∉ front) (ends : note.EndsOpen marks)
    (number : Nat) :
    ofLine? (marks.block.map (·.2)) number (note.lineBehind front) = some (note.hint number) := by
  have found : Text.after? sign (note.lineBehind front) =
      some (note.key ++ ':' :: ' ' :: note.value) :=
    Text.after?_append clear ['a', 'o', 'c', 's', '-'] _
  have isKey : (note.key ++ ':' :: ' ' :: note.value).takeWhile isKeyChar = note.key := by
    rw [List.takeWhile_append_of_pos note.plain]
    exact List.append_nil _
  have isRest : (note.key ++ ':' :: ' ' :: note.value).dropWhile isKeyChar =
      ':' :: ' ' :: note.value := by
    rw [List.dropWhile_append_of_pos note.plain]
    rfl
  have closersOff : ∀ closer ∈ marks.block.map (·.2), ¬ closer <:+ note.value := by
    intro closer isCloser
    obtain ⟨pair, isPair, rfl⟩ := List.mem_map.1 isCloser
    exact ends pair isPair
  rw [ofLine?, found, Option.map_some, isKey, isRest, valueOf?_colon note.isTrim closersOff]
  rfl

/-- A line without the sign holds no hint. -/
theorem ofLine?_of_plain {closers : List (List Char)} {line : List Char}
    (plain : ¬ sign <:+: line) (number : Nat) : ofLine? closers number line = none := by
  rw [ofLine?, Text.after?_eq_none_iff.2 (Text.offset?_eq_none plain), Option.map_none]

theorem ofLine?_eq_none {closers : List (List Char)} {line : List Char} (absent : '@' ∉ line)
    (number : Nat) : ofLine? closers number line = none :=
  ofLine?_of_plain (fun isIn => absent (isIn.subset List.mem_cons_self)) number

/-- **Notes on lines that are comments and leave pending what was pending are read back**, each on
its own line. -/
theorem ofLines_notes {Row : Type} {note : Row → Note} {front : Row → List Char} {rows : List Row}
    (clear : ∀ row ∈ rows, '@' ∉ front row) (ends : ∀ row ∈ rows, (note row).EndsOpen marks)
    (kept : ∀ row ∈ rows,
      marks.maskLine pending ((note row).lineBehind (front row)) = (true, pending))
    (number : Nat) :
    ofLines marks pending number (rows.map fun row => (note row).lineBehind (front row)) =
        Note.hints number (rows.map note) ∧
      marks.pendingFrom pending (rows.map fun row => (note row).lineBehind (front row)) =
        pending := by
  induction rows generalizing number with
  | nil => exact ⟨rfl, rfl⟩
  | cons row rows ih =>
      obtain ⟨isClear, clear⟩ := List.forall_mem_cons.1 clear
      obtain ⟨endsOpen, ends⟩ := List.forall_mem_cons.1 ends
      obtain ⟨isKept, kept⟩ := List.forall_mem_cons.1 kept
      have isRead := ofLine?_lineBehind isClear endsOpen number
      obtain ⟨others, pends⟩ := ih clear ends kept (number + 1)
      constructor
      · rw [List.map_cons, ofLines, isKept, if_pos rfl, isRead, others]
        rfl
      · rw [List.map_cons, Delimiters.pendingFrom, List.foldl_cons, isKept]
        exact pends

/-! ## Reading a text -/

/-- Lines that hold some hints. They are the lines of a text, with a line feed behind each or behind
all but the last; from any text with these lines the hints are read, and whatever text goes on from
them adds its own hints further down, none if all its lines are code. -/
structure Holds (marks : Delimiters) (lines : List (List Char)) (hints : List Hint) : Prop where
  ended : ∀ rest, Text.lines (Text.ended lines ++ rest) = lines ++ Text.lines rest
  joined : Text.lines (['\n'].intercalate lines) = lines
  alone : ∀ text, Text.lines text = lines → ofText marks text = hints
  followed : ∀ text rest, Text.lines text = lines ++ Text.lines rest →
    ofText marks text = hints ++ (ofText marks rest).map (movedBy lines.length)
  unchanged : ∀ text rest, Text.lines text = lines ++ Text.lines rest →
    (∀ isComment ∈ marks.mask rest, isComment = false) → ofText marks text = hints

/-- Lines from which hints are read hold them, if they leave nothing pending. -/
theorem holds_of_ofLines {lines : List (List Char)} {hints : List Hint}
    (areLines : ∀ line ∈ lines, Text.IsLine line) (filled : ∀ line ∈ lines, line ≠ [])
    (read : ofLines marks none 1 lines = hints) (ends : marks.pendingFrom none lines = none) :
    Holds marks lines hints := by
  have followed (text rest : List Char) (isText : Text.lines text = lines ++ Text.lines rest) :
      ofText marks text = hints ++ (ofText marks rest).map (movedBy lines.length) := by
    rw [ofText_eq_ofLines, isText, ofLines_append, read, ends, ofText_eq_ofLines, ofLines_movedBy]
  refine ⟨Text.lines_ended_append areLines, Text.lines_intercalate areLines filled, ?_, followed,
    ?_⟩
  · intro text isText
    have nothing := followed text [] (by simpa [Text.lines, Text.pieces] using isText)
    simpa [ofText, ofMask, Text.numberedLines, Text.lines, Text.pieces] using nothing
  · intro text rest isText code
    have none : ofText marks rest = [] := by
      rw [ofText_eq_ofLines]
      exact ofLines_of_code code
    rw [followed text rest isText, none, List.map_nil, List.append_nil]

/-- The lines of a block with a note on each of them. -/
def blockOf (notes : List Note) : List (List Char) :=
  "/*".toList :: notes.map (·.lineBehind " * ".toList) ++ ["*/".toList]

open Delimiters (IsClear maskLine_lineMark maskLine_inside maskLine_opener maskLine_closer)

/-- Lines behind a line mark hold the notes on them. -/
theorem holds_behind_lineMark {mark : List Char} (isMark : mark ∈ marks.line) (clear : IsClear mark)
    {rows : List (List Char × Note)} (blank : ∀ row ∈ rows, ∀ c ∈ row.1, c = ' ' ∨ c = '\t')
    (ends : ∀ row ∈ rows, row.2.EndsOpen marks) :
    Holds marks (rows.map fun row => row.2.lineBehind (row.1 ++ mark ++ [' ']))
      (Note.hints 1 (rows.map (·.2))) := by
  have lacks {row : List Char × Note} (isRow : row ∈ rows) {d : Char} (isOther : d ≠ ' ' ∧ d ≠ '\t')
      (notInMark : d ∉ mark) : d ∉ row.1 ++ mark ++ [' '] := by
    have notInIndent : d ∉ row.1 := by
      intro isIn
      exact (blank row isRow d isIn).elim isOther.1 isOther.2
    simp [notInIndent, notInMark, isOther.1]
  have isComment : ∀ row ∈ rows,
      marks.maskLine none (row.2.lineBehind (row.1 ++ mark ++ [' '])) = (true, none) := by
    intro row isRow
    have isBlank : ∀ c ∈ row.1, Text.isBlank c = true := by
      intro c isIn
      rcases blank row isRow c isIn with rfl | rfl <;> decide
    rw [Note.lineBehind, List.append_assoc, List.append_assoc]
    exact maskLine_lineMark isMark clear isBlank _
  have noFeed : '\n' ∉ mark := by
    intro isIn
    exact absurd (clear.2 _ isIn).1 (by decide)
  obtain ⟨read, pends⟩ := ofLines_notes
    (fun row isRow => lacks isRow (by decide) clear.sign_not_mem) ends isComment 1
  refine holds_of_ofLines ?_ ?_ read pends
  · intro line isLine
    obtain ⟨row, isRow, rfl⟩ := List.mem_map.1 isLine
    exact row.2.isLine_lineBehind (lacks isRow (by decide) noFeed)
  · intro line isLine
    obtain ⟨row, -, rfl⟩ := List.mem_map.1 isLine
    simp [Note.lineBehind]

/-- The lines of a block hold the notes on them. -/
theorem holds_blockOf (apart : marks.Apart)
    (first : marks.openerAt? "/*".toList = some ("/*".toList, "*/".toList))
    (only : ∀ pair ∈ marks.block, pair.2 = "*/".toList) {notes : List Note}
    (inside : ∀ note ∈ notes, ¬ "*/".toList <:+: note.lineBehind " * ".toList) :
    Holds marks (blockOf notes) (Note.hints 2 notes) := by
  have endsOpen : ∀ note ∈ notes, note.EndsOpen marks := by
    intro note isNote pair isPair isEnd
    rw [only pair isPair] at isEnd
    have inLine : note.value <:+ note.lineBehind " * ".toList := by
      refine ⟨" * ".toList ++ (sign ++ (note.key ++ [':', ' '])), ?_⟩
      simp [Note.lineBehind]
    exact inside note isNote (isEnd.trans inLine).isInfix
  have opens := maskLine_opener apart (by decide) first
  have closes : marks.maskLine (some "*/".toList) "*/".toList = (true, none) :=
    maskLine_closer apart.1 (by decide)
  have noHint (number : Nat) {line : List Char} (absent : '@' ∉ line) :
      ofLine? (marks.block.map (·.2)) number line = none := ofLine?_eq_none absent number
  have within : ofLines marks (some "*/".toList) 2 (notes.map (·.lineBehind " * ".toList)) =
        Note.hints 2 notes ∧
      marks.pendingFrom (some "*/".toList) (notes.map (·.lineBehind " * ".toList)) =
        some "*/".toList := by
    have both := ofLines_notes (fun (_ : Note) _ => (by decide : '@' ∉ " * ".toList)) endsOpen
      (fun note isNote => maskLine_inside (inside note isNote)) 2
    rwa [List.map_id'] at both
  obtain ⟨read, pends⟩ := within
  have each : ∀ line ∈ blockOf notes,
      line = "/*".toList ∨ (∃ note : Note, note.lineBehind " * ".toList = line) ∨
        line = "*/".toList := by
    intro line isLine
    rw [blockOf, List.mem_append, List.mem_cons, List.mem_map, List.mem_singleton] at isLine
    rcases isLine with (isOpener | ⟨note, -, isNote⟩) | isCloser
    · exact .inl isOpener
    · exact .inr (.inl ⟨note, isNote⟩)
    · exact .inr (.inr isCloser)
  refine holds_of_ofLines ?_ ?_ ?_ ?_
  · intro line isLine
    rcases each line isLine with rfl | ⟨note, rfl⟩ | rfl
    · exact ⟨by decide, by decide⟩
    · exact note.isLine_lineBehind (by decide)
    · exact ⟨by decide, by decide⟩
  · intro line isLine
    rcases each line isLine with rfl | ⟨note, rfl⟩ | rfl
    · decide
    · simp [Note.lineBehind]
    · decide
  · rw [blockOf, List.cons_append, ofLines, opens, if_pos rfl, noHint _ (by decide),
      ofLines_append, read, pends, ofLines, closes, if_pos rfl, noHint _ (by decide)]
    simp [ofLines]
  · rw [blockOf, List.cons_append, Delimiters.pendingFrom, List.foldl_cons, opens,
      List.foldl_append]
    rw [Delimiters.pendingFrom] at pends
    rw [pends, List.foldl_cons, closes, List.foldl_nil]

/-- **Hints that are written in comments are read back.** In a built-in language, lines behind a
line mark hold the notes on them, whatever white space is in front of the marks, and so do the lines
of a block that no line ends. A note is well-formed exactly when its key is known. -/
theorem ofText_written {language : Language}
    (isBuiltIn : language ∈ LanguageTable.builtInLanguages) :
    (∀ mark ∈ language.comments.line, ∀ rows : List (List Char × Note),
      (∀ row ∈ rows, (∀ c ∈ row.1, c = ' ' ∨ c = '\t') ∧ row.2.EndsOpen language.comments) →
        Holds language.comments (rows.map fun row => row.2.lineBehind (row.1 ++ mark ++ [' ']))
          (Note.hints 1 (rows.map (·.2)))) ∧
      (language.comments.block ≠ [] → ∀ notes : List Note,
        (∀ note ∈ notes, ¬ "*/".toList <:+: note.lineBehind " * ".toList) →
          Holds language.comments (blockOf notes) (Note.hints 2 notes)) ∧
      ∀ (note : Note) (number : Nat),
        (note.hint number).problem? = none ↔ String.ofList note.key ∈ knownKeys := by
  refine ⟨?_, ?_, Note.problem?_hint⟩
  · intro mark isMark rows written
    exact holds_behind_lineMark isMark ((Delimiters.builtIn_clear language isBuiltIn).1 mark isMark)
      (fun row isRow => (written row isRow).1) (fun row isRow => (written row isRow).2)
  · intro hasBlock notes inside
    have apart := Delimiters.builtIn_apart language isBuiltIn
    have stars : ∀ language ∈ LanguageTable.builtInLanguages, language.comments.block ≠ [] →
        language.comments.openerAt? "/*".toList = some ("/*".toList, "*/".toList) ∧
          ∀ pair ∈ language.comments.block, pair.2 = "*/".toList := by
      decide
    obtain ⟨first, only⟩ := stars language isBuiltIn hasBlock
    exact holds_blockOf apart first only inside

/-- A note whose value holds a closer, an opener, another sign and a line mark. -/
def tangled : Note where
  key := "role".toList
  value := "a */ /* @aocs-owner: b // c".toList
  plain := List.all_eq_true.1 (by decide)
  filled := by decide
  oneLine := by decide
  isTrim := by decide

/-- A note with a key that no rule knows, on which a block is opened again. -/
def reopened : Note where
  key := "x_Y-9".toList
  value := "/* @aocs-role:".toList
  plain := List.all_eq_true.1 (by decide)
  filled := by decide
  oneLine := by decide
  isTrim := by decide

/-- Behind a line mark even a closer stands for itself, and a block goes on until it ends. -/
theorem ofText_written_tangled :
    ofText LanguageTable.slashComments
        "\t // @aocs-role: a */ /* @aocs-owner: b // c\nlet x = 1;".toList =
      [⟨1, "role", some "a */ /* @aocs-owner: b // c"⟩] ∧
    ofText LanguageTable.slashComments
        "/*\n * @aocs-x_Y-9: /* @aocs-role:\n*/\nlet x = 1;\n".toList =
      [⟨2, "x_Y-9", some "/* @aocs-role:"⟩] ∧
    (reopened.hint 2).problem? = some .unknownKey := by
  let javascript : Language :=
    ⟨"javascript", ["js", "mjs", "cjs", "jsx"], LanguageTable.slashComments,
      LanguageTable.scriptExport⟩
  have isBuiltIn : javascript ∈ LanguageTable.builtInLanguages := List.mem_cons_self
  obtain ⟨behindMark, inBlock, -⟩ := ofText_written isBuiltIn
  have indent : ∀ c ∈ "\t ".toList, c = ' ' ∨ c = '\t' := by simp
  have endsOpen : tangled.EndsOpen javascript.comments := by
    rw [Note.EndsOpen]
    decide +kernel
  have row : ∀ row ∈ [("\t ".toList, tangled)],
      (∀ c ∈ row.1, c = ' ' ∨ c = '\t') ∧ row.2.EndsOpen javascript.comments :=
    List.forall_mem_singleton.2 ⟨indent, endsOpen⟩
  have inside : ∀ note ∈ [reopened], ¬ "*/".toList <:+: note.lineBehind " * ".toList := by
    decide +kernel
  have onLine := behindMark "//".toList (by decide) _ row
  have onBlock := inBlock (by decide) _ inside
  refine ⟨?_, ?_, by decide⟩
  · exact onLine.unchanged _ "let x = 1;".toList (by decide +kernel) (by decide +kernel)
  · exact onBlock.unchanged _ "let x = 1;\n".toList (by decide +kernel) (by decide +kernel)

end Hint

end RepoContract
