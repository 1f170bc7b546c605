/-
# RepoContract.Proofs.Pattern.Catalog: the lines on which an entry of the catalog fires

An entry judges a line by the pattern of the first family that names its language. No name belongs
to two families of an entry (`catalog_separate`), so the order of the families has no part in it: an
entry fires just if some family names the language and its pattern matches (`firesOn_iff`).

What a pattern matches is told by the line alone, split around what is looked for. A pattern looks
at the character in front in two ways: it takes the character with it, or it asks for a word edge.
Both come to one condition on the last character of the front, which the start of the line fulfils
(`isMatch_after`, `spans_edge_word`). Since the front is any front, a word that is refused in one
place hides none behind it.
-/
import Mathlib.Data.List.Basic
import RepoContract.Proofs.Pattern.Spans

namespace RepoContract

set_option autoImplicit false

namespace ForbiddenPattern

open Pattern (Expr Kind)
open Pattern.Expr

variable {before : Option Char} {span behind : List Char}

/-! ## Entries and languages -/

/-- No language belongs to two families of an entry. -/
theorem catalog_separate : ∀ entry ∈ catalog, entry.matchers.Pairwise fun first second =>
    ∀ name ∈ first.1, ∀ other ∈ second.1, sameAsciiCase name other = false := by
  decide +kernel

theorem sameAsciiCase_of_both {name other language : String}
    (first : sameAsciiCase name language = true) (second : sameAsciiCase other language = true) :
    sameAsciiCase name other = true :=
  beq_iff_eq.2 ((beq_iff_eq.1 first).trans (beq_iff_eq.1 second).symm)

/-- The pattern of any family that names a language is the one that is used for it. -/
theorem matcher?_eq_some {entry : ForbiddenPattern} (isEntry : entry ∈ catalog)
    {family : List String} {expr : Expr} (isMatcher : (family, expr) ∈ entry.matchers)
    {name language : String} (isName : name ∈ family)
    (names : sameAsciiCase name language = true) : entry.matcher? language = some expr := by
  have separate := catalog_separate entry isEntry
  obtain ⟨front, back, parts⟩ := List.append_of_mem isMatcher
  rw [parts] at separate
  have found : entry.matchers.find? (fun matcher => matcher.1.any (sameAsciiCase · language)) =
      some (family, expr) := by
    refine List.find?_eq_some_iff_append.2
      ⟨List.any_eq_true.2 ⟨name, isName, names⟩, front, back, parts, fun matcher inFront => ?_⟩
    rw [Bool.not_eq_true', List.any_eq_false]
    intro other isOther otherNames
    have apart := (List.pairwise_append.1 separate).2.2 matcher inFront _ List.mem_cons_self
      other isOther name isName
    rw [sameAsciiCase_of_both otherNames names] at apart
    exact Bool.noConfusion apart
  rw [matcher?, found]
  rfl

/-- An entry fires just if a family of it names the language, and the pattern of that family
matches. -/
theorem firesOn_iff {entry : ForbiddenPattern} (isEntry : entry ∈ catalog) (language : String)
    (line : List Char) :
    entry.firesOn language line = true ↔
      ∃ matcher ∈ entry.matchers, (∃ name ∈ matcher.1, sameAsciiCase name language = true) ∧
        matcher.2.isMatch line = true := by
  rw [firesOn, Option.any_eq_true]
  constructor
  · rintro ⟨expr, used, isMatch⟩
    obtain ⟨matcher, found, rfl⟩ := Option.map_eq_some_iff.1 used
    exact ⟨matcher, List.mem_of_find?_eq_some found,
      List.any_eq_true.1 (List.find?_some found :), isMatch⟩
  · rintro ⟨matcher, isMatcher, ⟨name, isName, names⟩, isMatch⟩
    exact ⟨matcher.2, matcher?_eq_some isEntry isMatcher isName names, isMatch⟩

/-! ## What stands in front -/

/-- A pattern behind the start of the line, or behind a character of none of some kinds. -/
theorem isMatch_after (kinds : List Kind) (rest : Expr) (line : List Char) :
    (Expr.seq (after kinds) rest).isMatch line = true ↔
      ∃ front span behind, line = front ++ (span ++ behind) ∧
        (∀ c ∈ front.getLast?, ∀ kind ∈ kinds, kind.has c = false) ∧
        rest.Spans front.getLast? span behind := by
  simp only [isMatch_iff, after, spans_seq, spans_choice, spans_start, spans_outside]
  constructor
  · rintro ⟨front, _, behind, rfl, _, right, rfl, ⟨rfl, atStart⟩ | ⟨c, rfl, clear⟩, spans⟩
    · exact ⟨front, right, behind, rfl, by simp [atStart], spans⟩
    · refine ⟨front ++ [c], right, behind, by simp, by simpa using clear, ?_⟩
      simpa [Pattern.lastOf] using spans
  · rintro ⟨front, span, behind, rfl, clear, spans⟩
    obtain rfl | ⟨init, c, rfl⟩ := front.eq_nil_or_concat
    · exact ⟨[], span, behind, rfl, [], span, rfl, .inl ⟨rfl, rfl⟩, spans⟩
    · refine ⟨init, c :: span, behind, by simp, [c], span, rfl, .inr ⟨c, rfl, ?_⟩, ?_⟩
      · simpa using clear
      · simpa [Pattern.lastOf] using spans

/-- At a word character a word edge says that none stands in front. -/
theorem spans_edge_word {c : Char} (isWord : Text.isWordChar c = true) :
    (Expr.edge false).Spans before span (c :: behind) ↔
      span = [] ∧ ∀ d ∈ before, Text.isWordChar d = false := by
  rw [spans_edge]
  cases before <;> simp [Pattern.Place.isEdge, isWord]

/-- A word at a word edge, with a pattern behind it. -/
theorem isMatch_atEdge {c : Char} (isWord : Text.isWordChar c = true) (more : List Char)
    (rest : Expr) (line : List Char) :
    (Expr.seq (atEdge (c :: more)) rest).isMatch line = true ↔
      ∃ front span behind, line = front ++ (c :: more ++ (span ++ behind)) ∧
        (∀ d ∈ front.getLast?, Text.isWordChar d = false) ∧
        rest.Spans (Pattern.lastOf front.getLast? (c :: more)) span behind := by
  rw [isMatch_iff, atEdge]
  simp only [spans_seq, spans_chars]
  constructor
  · rintro ⟨front, _, behind, rfl, _, right, rfl, ⟨_, _, rfl, isEdge, rfl⟩, spans⟩
    obtain ⟨rfl, clear⟩ := (spans_edge_word isWord).1 isEdge
    exact ⟨front, right, behind, by simp, clear, spans⟩
  · rintro ⟨front, span, behind, rfl, clear, spans⟩
    exact ⟨front, c :: more ++ span, behind, by simp, c :: more, span, rfl,
      ⟨[], c :: more, rfl, (spans_edge_word isWord).2 ⟨rfl, clear⟩, rfl⟩, spans⟩

/-! ## Calls -/

theorem spans_openParen :
    openParen.Spans before span behind ↔
      ∃ gap, span = gap ++ ['('] ∧ ∀ c ∈ gap, Text.isBlank c = true := by
  simp only [openParen, spans_seq, spans_blanks, spans_char]
  constructor
  · rintro ⟨gap, _, rfl, isBlank, rfl⟩
    exact ⟨gap, rfl, isBlank⟩
  · rintro ⟨gap, rfl, isBlank⟩
    exact ⟨gap, _, rfl, isBlank, rfl⟩

/-- A line calls a word: behind the word stands a parenthesis with nothing but white space between,
and a character in front of it, if there is one, is clear. -/
def Calls (clear : Char → Prop) (word line : List Char) : Prop :=
  ∃ front gap behind, line = front ++ word ++ gap ++ '(' :: behind ∧
    (∀ c ∈ front.getLast?, clear c) ∧ ∀ c ∈ gap, Text.isBlank c = true

theorem isMatch_after_call (kinds : List Kind) (word line : List Char) :
    (Expr.seq (after kinds) (.seq (chars word) openParen)).isMatch line = true ↔
      Calls (fun c => ∀ kind ∈ kinds, kind.has c = false) word line := by
  simp only [isMatch_after, spans_seq_chars, spans_openParen]
  constructor
  · rintro ⟨front, _, behind, rfl, clear, _, rfl, gap, rfl, isBlank⟩
    exact ⟨front, gap, behind, by simp, clear, isBlank⟩
  · rintro ⟨front, gap, behind, rfl, clear, isBlank⟩
    exact ⟨front, _, behind, by simp, clear, _, rfl, gap, rfl, isBlank⟩

/-- A line makes a function: the word `new` with no word character in front, then white space, the
word `Function`, and a parenthesis with nothing but white space between. -/
def MakesFunction (line : List Char) : Prop :=
  ∃ front space gap behind,
    line = front ++ ['n', 'e', 'w'] ++ space ++ ['F', 'u', 'n', 'c', 't', 'i', 'o', 'n'] ++ gap ++
      '(' :: behind ∧
    (∀ c ∈ front.getLast?, Text.isWordChar c = false) ∧
    space ≠ [] ∧ (∀ c ∈ space, Text.isBlank c = true) ∧ ∀ c ∈ gap, Text.isBlank c = true

theorem isMatch_makesFunction (line : List Char) :
    (Expr.seq (atEdge ['n', 'e', 'w']) (.seq someBlanks
      (.seq (chars ['F', 'u', 'n', 'c', 't', 'i', 'o', 'n']) openParen))).isMatch line = true ↔
      MakesFunction line := by
  rw [isMatch_atEdge (by decide)]
  simp only [spans_seq someBlanks, spans_someBlanks, spans_seq_chars, spans_openParen]
  constructor
  · rintro ⟨front, _, behind, rfl, clear, space, _, rfl, ⟨some, spaceBlank⟩, _, rfl, gap, rfl,
      gapBlank⟩
    exact ⟨front, space, gap, behind, by simp, clear, some, spaceBlank, gapBlank⟩
  · rintro ⟨front, space, gap, behind, rfl, clear, some, spaceBlank, gapBlank⟩
    exact ⟨front, _, behind, by simp, clear, space, _, rfl, ⟨some, spaceBlank⟩, _, rfl, gap, rfl,
      gapBlank⟩

theorem scriptEval_isMatch (line : List Char) :
    scriptEval.isMatch line = true ↔
      Calls (fun c => Text.isWordChar c = false ∧ c ≠ '$' ∧ c ≠ '.') ['e', 'v', 'a', 'l'] line ∨
        MakesFunction line := by
  have call := isMatch_after_call [.word, .char '$', .char '.'] ['e', 'v', 'a', 'l'] line
  simp only [List.forall_mem_cons, Kind.has, decide_eq_false_iff_not, List.not_mem_nil,
    false_implies, implies_true, and_true] at call
  rw [scriptEval, isMatch_choice]
  exact or_congr call (isMatch_makesFunction line)

theorem pythonEval_isMatch (line : List Char) :
    pythonEval.isMatch line = true ↔
      Calls (fun c => Text.isWordChar c = false ∧ c ≠ '.') ['e', 'v', 'a', 'l'] line ∨
        Calls (fun c => Text.isWordChar c = false ∧ c ≠ '.') ['e', 'x', 'e', 'c'] line := by
  have call := fun word => isMatch_after_call [.word, .char '.'] word line
  simp only [List.forall_mem_cons, Kind.has, decide_eq_false_iff_not, List.not_mem_nil,
    false_implies, implies_true, and_true] at call
  refine (isMatch_seq_choice _ _ _ _ line).trans (or_congr ?_ ?_)
  · exact call ['e', 'v', 'a', 'l']
  · exact call ['e', 'x', 'e', 'c']

/-- **The entry for dynamic evaluation fires exactly on bare calls.** In a script these are calls of
`eval` behind no word character, dollar or dot, and functions made by their constructor; in Python
calls of `eval` or `exec` behind no word character or dot. It fires in no other language. -/
theorem dynamicEval_firesOn :
    ∃ entry, find? "dynamic-eval" = some entry ∧ ∀ (language : String) (line : List Char),
      entry.firesOn language line = true ↔
        ((sameAsciiCase "javascript" language = true ∨
            sameAsciiCase "typescript" language = true) ∧
          (Calls (fun c => Text.isWordChar c = false ∧ c ≠ '$' ∧ c ≠ '.')
              ['e', 'v', 'a', 'l'] line ∨ MakesFunction line)) ∨
        (sameAsciiCase "python" language = true ∧
          (Calls (fun c => Text.isWordChar c = false ∧ c ≠ '.') ['e', 'v', 'a', 'l'] line ∨
            Calls (fun c => Text.isWordChar c = false ∧ c ≠ '.') ['e', 'x', 'e', 'c'] line)) := by
  refine ⟨_, rfl, fun language line => ?_⟩
  rw [firesOn_iff (List.mem_of_find?_eq_some (rfl : find? "dynamic-eval" = some _))]
  simp only [scripts, python, List.mem_cons, List.not_mem_nil, or_false, exists_eq_or_imp,
    exists_eq_left, scriptEval_isMatch, pythonEval_isMatch]

/-- A place that is refused hides none behind it. -/
example : scriptEval.isMatch "vm.eval(a); eval (b)".toList = true ∧
    scriptEval.isMatch "vm.eval(a); safe_eval (b)".toList = false := by
  decide +kernel

end ForbiddenPattern

end RepoContract
