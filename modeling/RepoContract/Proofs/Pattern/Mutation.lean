/-
# RepoContract.Proofs.Pattern.Mutation: the lines on which the entry for global mutation fires

A script changes global state by an assignment to a member of a global object. Its equals sign is
told from a comparison by what stands behind it, and there the pattern takes a character that is no
equals sign. So it asks for a character, too: an assignment whose value stands on the next line
ends in its equals sign, and the entry does not fire on it
(`ForbiddenPattern.globalMutation_unfinished`).

Nothing else is missed. The entry fires on a line just if the line assigns to such a member with
something behind the equals sign, and put in front of a line feed it fires on all of them
(`ForbiddenPattern.globalMutation_firesOn`).
-/
import RepoContract.Proofs.Pattern.Catalog

namespace RepoContract

set_option autoImplicit false

namespace ForbiddenPattern

open Pattern (Expr Kind)
open Pattern.Expr

variable {before : Option Char} {span behind line value : List Char}

/-! ## Assignments in scripts -/

/-- The objects whose members are global state. -/
def globalObjects : List (List Char) :=
  [['w', 'i', 'n', 'd', 'o', 'w'], ['g', 'l', 'o', 'b', 'a', 'l', 'T', 'h', 'i', 's'],
    ['g', 'l', 'o', 'b', 'a', 'l']]

/-- A line assigns to a member of a global object: the object, with no word character in front, a
dot, a name of word characters and dollars, and an equals sign with nothing but white space between.
Behind the equals sign stands the value. -/
def AssignsGlobal (value line : List Char) : Prop :=
  ∃ object ∈ globalObjects, ∃ front member gap,
    line = front ++ object ++ '.' :: member ++ gap ++ '=' :: value ∧
    (∀ c ∈ front.getLast?, Text.isWordChar c = false) ∧
    member ≠ [] ∧ (∀ c ∈ member, Text.isWordChar c = true ∨ c = '$') ∧
    ∀ c ∈ gap, Text.isBlank c = true

/-- What the pattern asks for behind a global object. -/
def memberAssigned : Expr :=
  row [char '.', oneOrMore (among [.word, .char '$']), blanks, char '=', outside [.char '=']]

theorem spans_memberAssigned :
    memberAssigned.Spans before span behind ↔ ∃ member gap c,
      span = '.' :: member ++ gap ++ ['=', c] ∧ member ≠ [] ∧
      (∀ c ∈ member, Text.isWordChar c = true ∨ c = '$') ∧
      (∀ c ∈ gap, Text.isBlank c = true) ∧ c ≠ '=' := by
  simp only [memberAssigned, row, spans_seq, spans_char, spans_oneOrMore_among, spans_blanks,
    spans_outside, List.mem_cons, List.not_mem_nil, or_false, exists_eq_or_imp, exists_eq_left,
    forall_eq, Kind.has, decide_eq_true_eq, decide_eq_false_iff_not]
  constructor
  · rintro ⟨_, _, rfl, rfl, member, _, rfl, ⟨filled, named⟩, gap, _, rfl, blank, _, _, rfl, rfl,
      c, rfl, differs⟩
    exact ⟨member, gap, c, by simp, filled, named, blank, differs⟩
  · rintro ⟨member, gap, c, rfl, filled, named, blank, differs⟩
    exact ⟨['.'], member ++ gap ++ ['=', c], by simp, rfl, member, gap ++ ['=', c], by simp,
      ⟨filled, named⟩, gap, ['=', c], rfl, blank, ['='], [c], rfl, rfl, c, rfl, differs⟩

/-- A global object at a word edge, with an assignment to a member behind it. -/
theorem isMatch_object {c : Char} (isWord : Text.isWordChar c = true) (more line : List Char) :
    (Expr.seq (.edge false) (.seq (chars (c :: more)) memberAssigned)).isMatch line = true ↔
      ∃ front member gap d value,
        line = front ++ (c :: more) ++ '.' :: member ++ gap ++ '=' :: d :: value ∧
        (∀ c ∈ front.getLast?, Text.isWordChar c = false) ∧
        member ≠ [] ∧ (∀ c ∈ member, Text.isWordChar c = true ∨ c = '$') ∧
        (∀ c ∈ gap, Text.isBlank c = true) ∧ d ≠ '=' := by
  have whole := isMatch_atEdge isWord more memberAssigned line
  rw [atEdge, isMatch_seq_assoc] at whole
  rw [whole]
  simp only [spans_memberAssigned]
  constructor
  · rintro ⟨front, _, behind, rfl, clear, member, gap, d, rfl, rest⟩
    exact ⟨front, member, gap, d, behind, by simp, clear, rest⟩
  · rintro ⟨front, member, gap, d, value, rfl, clear, rest⟩
    exact ⟨front, _, value, by simp, clear, member, gap, d, rfl, rest⟩

theorem scriptGlobal_isMatch (line : List Char) :
    scriptGlobal.isMatch line = true ↔ ∃ c value, c ≠ '=' ∧ AssignsGlobal (c :: value) line := by
  have split : scriptGlobal.isMatch line = true ↔ ∃ object ∈ globalObjects,
      (Expr.seq (.edge false) (.seq (chars object) memberAssigned)).isMatch line = true := by
    simp only [globalObjects, List.mem_cons, List.not_mem_nil, or_false, exists_eq_or_imp,
      exists_eq_left]
    exact (isMatch_seq_choice _ _ _ _ line).trans
      (or_congr_right (isMatch_seq_choice _ _ _ _ line))
  have atWord : ∀ object ∈ globalObjects, ∃ c more, object = c :: more ∧
      Text.isWordChar c = true := by
    simp only [globalObjects, List.forall_mem_cons]
    exact ⟨⟨'w', _, rfl, by decide⟩, ⟨'g', _, rfl, by decide⟩, ⟨'g', _, rfl, by decide⟩, nofun⟩
  rw [split]
  constructor
  · rintro ⟨object, isObject, isMatch⟩
    obtain ⟨c, more, rfl, isWord⟩ := atWord object isObject
    obtain ⟨front, member, gap, d, value, isLine, clear, filled, named, blank, differs⟩ :=
      (isMatch_object isWord more line).1 isMatch
    exact ⟨d, value, differs, _, isObject, front, member, gap, isLine, clear, filled, named, blank⟩
  · rintro ⟨d, value, differs, object, isObject, front, member, gap, isLine, clear, filled, named,
      blank⟩
    obtain ⟨c, more, rfl, isWord⟩ := atWord object isObject
    exact ⟨_, isObject, (isMatch_object isWord more line).2
      ⟨front, member, gap, d, value, isLine, clear, filled, named, blank, differs⟩⟩

/-! ## Assignments at the end of a line -/

/-- What is put behind a line is put behind the value. -/
theorem AssignsGlobal.append (assigns : AssignsGlobal value line) (behind : List Char) :
    AssignsGlobal (value ++ behind) (line ++ behind) := by
  obtain ⟨object, isObject, front, member, gap, rfl, rest⟩ := assigns
  exact ⟨object, isObject, front, member, gap, by simp, rest⟩

/-- What is taken off the end of a value is taken off the line. -/
theorem AssignsGlobal.of_concat {c d : Char}
    (assigns : AssignsGlobal (value ++ [c]) (line ++ [d])) : AssignsGlobal value line ∧ c = d := by
  obtain ⟨object, isObject, front, member, gap, isLine, rest⟩ := assigns
  have parts : line ++ [d] =
      (front ++ object ++ '.' :: member ++ gap ++ '=' :: value) ++ [c] := by
    rw [isLine]
    simp
  obtain ⟨rfl, same⟩ := List.append_inj' parts rfl
  exact ⟨⟨object, isObject, front, member, gap, rfl, rest⟩, (List.cons.inj same).1.symm⟩

/-- In front of a line feed every assignment has something behind its equals sign. -/
theorem assignsGlobal_feed_iff (line : List Char) :
    (∃ c value, c ≠ '=' ∧ AssignsGlobal (c :: value) (line ++ ['\n'])) ↔
      ∃ value, value.head? ≠ some '=' ∧ AssignsGlobal value line := by
  constructor
  · rintro ⟨c, value, differs, assigns⟩
    obtain ⟨front, last, split⟩ := List.eq_nil_or_concat (c :: value) |>.resolve_left (by simp)
    rw [split, List.concat_eq_append] at assigns
    refine ⟨front, ?_, assigns.of_concat.1⟩
    cases front with
    | nil => simp
    | cons d front =>
        obtain ⟨rfl, -⟩ := List.cons.inj split
        simpa using differs
  · rintro ⟨value, differs, assigns⟩
    have assigns := assigns.append ['\n']
    cases value with
    | nil => exact ⟨'\n', [], by decide, assigns⟩
    | cons c value => exact ⟨c, value ++ ['\n'], by simpa using differs, assigns⟩

/-! ## Statements in Python -/

/-- A line declares a name global: behind its indent stand the word `global`, white space and a word
character. -/
def DeclaresGlobal (line : List Char) : Prop :=
  ∃ indent space c behind,
    line = indent ++ ['g', 'l', 'o', 'b', 'a', 'l'] ++ space ++ c :: behind ∧
    (∀ c ∈ indent, Text.isBlank c = true) ∧
    space ≠ [] ∧ (∀ c ∈ space, Text.isBlank c = true) ∧ Text.isWordChar c = true

theorem pythonGlobal_isMatch (line : List Char) :
    pythonGlobal.isMatch line = true ↔ DeclaresGlobal line := by
  simp only [isMatch_iff, pythonGlobal, indented, row, spans_seq, spans_start, spans_blanks,
    spans_chars, spans_someBlanks, spans_among, List.mem_singleton, exists_eq_left, Kind.has]
  constructor
  · rintro ⟨front, _, behind, rfl, _, _, rfl, ⟨rfl, atStart⟩, indent, _, rfl, blank, _, _, rfl,
      rfl, space, _, rfl, ⟨filled, spaceBlank⟩, c, rfl, isWord⟩
    obtain rfl := List.getLast?_eq_none_iff.1 atStart
    exact ⟨indent, space, c, behind, by simp, blank, filled, spaceBlank, isWord⟩
  · rintro ⟨indent, space, c, behind, rfl, blank, filled, spaceBlank, isWord⟩
    exact ⟨[], indent ++ (['g', 'l', 'o', 'b', 'a', 'l'] ++ (space ++ [c])), behind, by simp, [],
      _, rfl, ⟨rfl, rfl⟩, indent, _, rfl, blank, _, _, rfl, rfl, space, _, rfl,
      ⟨filled, spaceBlank⟩, c, rfl, isWord⟩

/-! ## The entry -/

/-- **The entry for global mutation fires exactly on assignments with something behind the equals
sign.** In a script these are assignments to members of global objects, in Python declarations of
global names; it fires in no other language. In a script it so misses just the assignments that end
their line: with a line feed behind it, every line is judged as it should be. -/
theorem globalMutation_firesOn (language : String) (line : List Char) :
    ∃ entry, find? "global-mutation" = some entry ∧
      (entry.firesOn language line = true ↔
        ((sameAsciiCase "javascript" language = true ∨
            sameAsciiCase "typescript" language = true) ∧
          ∃ c value, c ≠ '=' ∧ AssignsGlobal (c :: value) line) ∨
        (sameAsciiCase "python" language = true ∧ DeclaresGlobal line)) ∧
      ((sameAsciiCase "javascript" language = true ∨
            sameAsciiCase "typescript" language = true) →
        (entry.firesOn language (line ++ ['\n']) = true ↔
          ∃ value, value.head? ≠ some '=' ∧ AssignsGlobal value line)) := by
  have isEntry := List.mem_of_find?_eq_some (rfl : find? "global-mutation" = some _)
  refine ⟨_, rfl, ?_, fun isScript => ?_⟩
  · rw [firesOn_iff isEntry]
    simp only [scripts, python, List.mem_cons, List.not_mem_nil, or_false, exists_eq_or_imp,
      exists_eq_left, scriptGlobal_isMatch, pythonGlobal_isMatch]
  · have isFamily : ∃ name ∈ scripts, sameAsciiCase name language = true := by
      simpa [scripts] using isScript
    obtain ⟨name, isName, names⟩ := isFamily
    have used := matcher?_eq_some isEntry List.mem_cons_self isName names
    rw [firesOn, used, Option.any_some, scriptGlobal_isMatch, assignsGlobal_feed_iff]

/-- An assignment to a member of an object that is one itself counts, though its value is still to
come. -/
theorem globalMutation_firesOn_member :
    sameAsciiCase "typescript" "TypeScript" = true ∧
    ∃ value, value.head? ≠ some '=' ∧ AssignsGlobal value "if (a) self.global.$日 =".toList := by
  have isScript : sameAsciiCase "typescript" "TypeScript" = true := by decide +kernel
  obtain ⟨entry, isEntry, -, fires⟩ :=
    globalMutation_firesOn "TypeScript" "if (a) self.global.$日 =".toList
  refine ⟨isScript, (fires (.inr isScript)).1 ?_⟩
  have firesThere : (find? "global-mutation").any
      (·.firesOn "TypeScript" ("if (a) self.global.$日 =".toList ++ ['\n'])) = true := by
    decide +kernel
  rwa [isEntry] at firesThere

/-- **An assignment that ends its line is missed**, as nothing stands behind its equals sign. -/
theorem globalMutation_unfinished :
    (∃ value, value.head? ≠ some '=' ∧ AssignsGlobal value "window.x =".toList) ∧
    ∃ entry, find? "global-mutation" = some entry ∧
      entry.firesOn "javascript" "window.x =".toList = false := by
  have named : ∀ c ∈ ['x'], Text.isWordChar c = true ∨ c = '$' :=
    List.forall_mem_singleton.2 (.inl (by decide))
  have blank : ∀ c ∈ [' '], Text.isBlank c = true := List.forall_mem_singleton.2 (by decide)
  have assigns : AssignsGlobal [] "window.x =".toList :=
    ⟨"window".toList, by decide +kernel, [], ['x'], [' '], by decide +kernel, nofun,
      List.cons_ne_nil _ _, named, blank⟩
  exact ⟨⟨[], nofun, assigns⟩, _, rfl, by decide +kernel⟩

end ForbiddenPattern

end RepoContract
