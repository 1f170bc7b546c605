/-
# RepoContract.Proofs.Text.Blank: what white space does to a text

Trimming takes away white space only (`exists_padding`), and leaves a text that has none at its ends
as it is (`IsTrim`).

The words of a text are counted apart on both sides of white space (`wordCountFrom_append_blank`),
and a text has no fewer words than one that it goes on from. Nor do they change in number when one
word stands in the place of another (`wordCountFrom_replace`).
-/
import Mathlib.Data.List.TakeWhile
import RepoContract.Text.Blank

namespace RepoContract.Text

set_option autoImplicit false

/-- Nothing is left of a text exactly when it is white space throughout. -/
theorem trim_eq_nil_iff (text : List Char) : trim text = [] ↔ ∀ c ∈ text, isBlank c = true := by
  simp only [trim, trimEnd, trimStart, List.reverse_eq_nil_iff, List.dropWhile_eq_nil_iff,
    List.mem_reverse]
  constructor
  · intro rest c member
    rw [← List.takeWhile_append_dropWhile (p := isBlank) (l := text)] at member
    rcases List.mem_append.1 member with front | behind
    · exact List.mem_takeWhile_imp front
    · exact rest c behind
  · intro blank c member
    exact blank c (List.dropWhile_subset _ member)

/-- White space around a text is trimmed away. -/
theorem trim_padded {front back : List Char} (frontBlank : ∀ c ∈ front, isBlank c = true)
    (backBlank : ∀ c ∈ back, isBlank c = true) (text : List Char) :
    trim (front ++ (text ++ back)) = trim text := by
  have nothing : back.dropWhile isBlank = [] := List.dropWhile_eq_nil_iff.2 backBlank
  have noEnd : back.reverse.dropWhile isBlank = [] :=
    List.dropWhile_eq_nil_iff.2 fun c isIn => backBlank c (List.mem_reverse.1 isIn)
  rw [trim, trim, trimStart, List.dropWhile_append_of_pos frontBlank, List.dropWhile_append,
    nothing, trimStart]
  split
  · next empty => rw [List.isEmpty_iff.1 empty]
  · rw [trimEnd, trimEnd, List.reverse_append, List.dropWhile_append, noEnd, List.isEmpty_nil,
      if_pos rfl]

/-! ## Trimmed texts -/

/-- A text with no white space at either end. -/
structure IsTrim (text : List Char) : Prop where
  head : ∀ c ∈ text.head?, isBlank c = false
  last : ∀ c ∈ text.getLast?, isBlank c = false

instance (text : List Char) : Decidable (IsTrim text) :=
  decidable_of_iff ((text.head?.all fun c => !isBlank c) = true ∧
      (text.getLast?.all fun c => !isBlank c) = true) (by
    simp only [Option.all_eq_true, Bool.not_eq_true']
    exact ⟨fun ⟨head, last⟩ => ⟨head, last⟩, fun ⟨head, last⟩ => ⟨head, last⟩⟩)

theorem dropWhile_isBlank_eq_self {text : List Char} (head : ∀ c ∈ text.head?, isBlank c = false) :
    text.dropWhile isBlank = text := by
  cases text with
  | nil => rfl
  | cons c rest => rw [List.dropWhile_cons_of_neg (by simp [head c rfl])]

theorem IsTrim.trim_eq {text : List Char} (isTrim : IsTrim text) : trim text = text := by
  rw [trim, trimStart, dropWhile_isBlank_eq_self isTrim.head, trimEnd,
    dropWhile_isBlank_eq_self, List.reverse_reverse]
  rw [List.head?_reverse]
  exact isTrim.last

theorem isTrim_trim (text : List Char) : IsTrim (trim text) := by
  have notBlank (other : List Char) : ∀ c ∈ (other.dropWhile isBlank).head?, isBlank c = false := by
    intro c isHead
    have head := List.head?_dropWhile_not isBlank other
    rw [Option.mem_def.1 isHead] at head
    exact head
  refine ⟨fun c isHead => ?_, ?_⟩
  · -- what is cut off at the end leaves the front as it is
    have isPrefix : trim text <+: trimStart text := by
      rw [trim, trimEnd, ← List.reverse_suffix, List.reverse_reverse]
      exact List.dropWhile_suffix _
    obtain ⟨cut, isCut⟩ := isPrefix
    refine notBlank text c ?_
    show c ∈ (trimStart text).head?
    rw [← isCut, List.head?_append, Option.mem_def.1 isHead]
    rfl
  · rw [trim, trimEnd, List.getLast?_reverse]
    exact notBlank _

/-- A text is what is left of it when it is trimmed, with white space around. -/
theorem exists_padding (text : List Char) :
    ∃ front back, text = front ++ (trim text ++ back) ∧ (∀ c ∈ front, isBlank c = true) ∧
      ∀ c ∈ back, isBlank c = true := by
  refine ⟨text.takeWhile isBlank, ((trimStart text).reverse.takeWhile isBlank).reverse, ?_,
    fun c isFront => List.mem_takeWhile_imp isFront,
    fun c isBack => List.mem_takeWhile_imp (List.mem_reverse.1 isBack)⟩
  have behind : trim text ++ ((trimStart text).reverse.takeWhile isBlank).reverse =
      trimStart text := by
    rw [trim, trimEnd, ← List.reverse_append, List.takeWhile_append_dropWhile,
      List.reverse_reverse]
  rw [behind, trimStart, List.takeWhile_append_dropWhile]

/-! ## Words -/

theorem wordCountFrom_append_blank (inside : Bool) (front : List Char) {c : Char}
    (rest : List Char) (blank : isBlank c = true) :
    wordCountFrom inside (front ++ c :: rest) = wordCountFrom inside front + wordCount rest := by
  induction front generalizing inside with
  | nil => simp [wordCountFrom, wordCount, blank]
  | cons first front ih =>
      rw [List.cons_append, wordCountFrom, wordCountFrom]
      split
      · exact ih false
      · rw [ih true, Nat.add_assoc]

/-- A word in front of a text is one more, unless it goes on with another. -/
theorem wordCountFrom_word (inside : Bool) {word : List Char} (filled : word ≠ [])
    (visible : ∀ c ∈ word, isBlank c = false) (rest : List Char) :
    wordCountFrom inside (word ++ rest) = (if inside then 0 else 1) + wordCountFrom true rest := by
  induction word generalizing inside with
  | nil => contradiction
  | cons first word ih =>
      obtain ⟨isVisible, visible⟩ := List.forall_mem_cons.1 visible
      rw [List.cons_append, wordCountFrom, isVisible, if_neg Bool.false_ne_true]
      cases word with
      | nil => rfl
      | cons second word =>
          rw [ih true (List.cons_ne_nil _ _) visible, if_pos rfl, Nat.zero_add]

/-- **One word in the place of another keeps the number of words.** -/
theorem wordCountFrom_replace (inside : Bool) {word other : List Char} (filled : word ≠ [])
    (visible : ∀ c ∈ word, isBlank c = false) (otherFilled : other ≠ [])
    (otherVisible : ∀ c ∈ other, isBlank c = false) (front back : List Char) :
    wordCountFrom inside (front ++ (word ++ back)) =
      wordCountFrom inside (front ++ (other ++ back)) := by
  induction front generalizing inside with
  | nil =>
      rw [List.nil_append, List.nil_append, wordCountFrom_word inside filled visible,
        wordCountFrom_word inside otherFilled otherVisible]
  | cons first front ih =>
      rw [List.cons_append, List.cons_append, wordCountFrom, wordCountFrom, ih, ih]

theorem wordCountFrom_le_append (inside : Bool) (front rest : List Char) :
    wordCountFrom inside front ≤ wordCountFrom inside (front ++ rest) := by
  induction front generalizing inside with
  | nil => exact Nat.zero_le _
  | cons first front ih =>
      rw [List.cons_append, wordCountFrom, wordCountFrom]
      split
      · exact ih false
      · exact Nat.add_le_add_left (ih true) _

theorem wordCount_le_append (front rest : List Char) :
    wordCount front ≤ wordCount (front ++ rest) :=
  wordCountFrom_le_append false front rest

end RepoContract.Text
